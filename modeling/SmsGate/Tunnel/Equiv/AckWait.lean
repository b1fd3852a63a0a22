import SmsGate.Tunnel.Equiv.Outbox
import Mathlib.Data.List.Nodup

/-!
# Does an ACK end the wait of the flush

A flush writes the event of a row, registers an ACK channel for the row in `pending`, and waits for
the channel.  `AckDelivered` looks the channel up, takes it out of `pending` and closes it.  The
frame is out before the channel is registered: an ACK that is looked up in between finds nothing,
and the flush waits for the whole of `ACKTimeout`.

* `ackWait_iff`: over all runs, a wait can be ended by nothing but the ACK channel just when an ACK
  for the row that was looked up after the channel was registered has been handled, or `pending` was
  drained at the end of a session, and neither has the timer expired nor is the session over;
* `not_ackWait_early`: a run in which the ACK comes before the channel is registered.
-/

namespace SmsGate.Tunnel

open Go

/-! ### What is asked of an ACK -/

/-- How far the handling of an ACK is. -/
inductive AckProgress where
  /-- There is none. -/
  | unseen
  /-- The goroutine has looked the row up in `pending`. -/
  | lookedUp (t : Thread)
  /-- The goroutine has gone on from there. -/
  | handled
  /-- There was none when a session ended and `pending` was drained. -/
  | drained
  deriving DecidableEq

/-- The handling of the ACK for row `id` after another occurrence. -/
def AckProgress.after (id : ℤ) (x : System.Occurrence Thread World Call Call.Ans Outer) :
    AckProgress → AckProgress
  | unseen =>
    match x with
    | .call t (.takeAck id') _ _ => if id' = id then .lookedUp t else .unseen
    | .call _ .drainAcks _ _ => .drained
    | _ => .unseen
  | lookedUp t =>
    match x with
    | .call u _ _ _ => if u = t then .handled else .lookedUp t
    | _ => .lookedUp t
  | handled => .handled
  | drained => .drained

/-- The handling of the first ACK for row `id` that was looked up in a part of the history. -/
def firstAck (id : ℤ) : History → AckProgress
  | [] => .unseen
  | x :: past => (firstAck id past).after id x

/-! ### The code -/

/-- How far a goroutine is with `flushMu` and an ACK channel. -/
structure AckPhase where
  locked : Bool
  /-- The channel that it is about to close. -/
  closing : Option ℕ

/-- A goroutine that has taken an ACK channel closes it, and only one that has `flushMu` registers
and drops ACK channels. -/
def ackProtocol : Protocol Call Call.Ans AckPhase where
  allows q c :=
    match q.closing with
    | some ch => c = .closeAck ch
    | none =>
      match c with
      | .closeAck _ => False
      | .registerAck _ | .dropAck _ | .unlock => q.locked
      | _ => True
  next q
    | .tryLock, (ok : Bool) => { q with locked := ok || q.locked }
    | .unlock, _ => { q with locked := false }
    | .takeAck _, (found : Option ℕ) => { q with closing := found }
    | .closeAck _, _ => { q with closing := none }
    | _, _ => q

/-- The call is allowed and changes nothing. -/
def Steady (q : AckPhase) (c : Call) : Prop :=
  ackProtocol.allows q c ∧ ∀ a, ackProtocol.next q c a = q

/-- The calls that leave `flushMu` and the ACK channel of a row alone. -/
def Call.offAcks : Call → Bool
  | tryLock | unlock | registerAck _ | dropAck _ | takeAck _ | closeAck _ => false
  | _ => true

theorem offAcks_of_common {c : Call} (hc : c.common) : c.offAcks := by
  cases c with
  | tryLock | unlock | registerAck | dropAck | takeAck | closeAck => cases hc
  | _ => rfl

theorem steady_offAcks {locked : Bool} (c : Call) (hc : c.offAcks) : Steady ⟨locked, none⟩ c := by
  cases c with
  | tryLock | unlock | registerAck | dropAck | takeAck | closeAck => cases hc
  | _ => exact ⟨trivial, fun _ => rfl⟩

section Obeys

variable {cfg : ManagerConfig} {n : ℕ}

/-- A goroutine that has neither `flushMu` nor a channel. -/
def AckPhase.idle : AckPhase := ⟨false, none⟩

/-- A program in front of which and after which a goroutine is idle. -/
def Idles {α : Type} (p : Io α) : Prop := p.Obeys ackProtocol .idle fun _ q => q = .idle

theorem idles_of_steady {α : Type} {p : Io α} (hp : p.Calls (Steady .idle)) : Idles p :=
  hp.obeys (fun _ h => h) fun _ => rfl

theorem Idles.bind {α β : Type} {p : Io α} {f : α → Io β} (hp : Idles p) (hf : ∀ a, Idles (f a)) :
    Idles (p >>= f) := by
  refine Prog.Obeys.bind hp ?_
  rintro a _ rfl
  exact hf a

theorem idles_pure {α : Type} (a : α) : Idles (pure a : Io α) := rfl

theorem closed_idles : Prog.Closed fun {_} (p : Io _) => Idles p := ⟨idles_pure, Idles.bind⟩

theorem idles_ask {c : Call} (hc : c.offAcks) : Idles (ask c) :=
  idles_of_steady (calls_ask (steady_offAcks c hc))

theorem idles_common (c : Call) (hc : c.common) : Idles (ask c) := idles_ask (offAcks_of_common hc)

theorem idles_writeJSON (m : Outbound) : Idles (writeJSON cfg n m) :=
  closed_writeJSON closed_idles idles_common (fun _ => idles_ask rfl) m

theorem idles_ackDelivered (bufferID : ℤ) : Idles (ackDelivered bufferID) := by
  refine Prog.perform_bind_obeys trivial fun (found : Option ℕ) => ?_
  cases found with
  | none => exact (idles_ask rfl).bind fun _ => idles_pure _
  | some ch =>
    exact Prog.perform_bind_obeys rfl fun _ => (idles_ask rfl).bind fun _ => idles_pure _

theorem idles_handleInbound (m : Inbound) : Idles (handleInbound m) := by
  cases m with
  | malformed | unknown => exact idles_pure _
  | smsDeliveredAck bufferID => exact idles_ackDelivered bufferID
  | task t =>
    exact idles_of_steady (calls_routeTask t (steady_offAcks _ rfl) (steady_offAcks _ rfl)
      fun _ => steady_offAcks _ rfl)

theorem idles_flushBuffer : Idles (flushBuffer cfg n) := by
  refine Prog.perform_bind_obeys trivial fun (ok : Bool) => ?_
  cases ok with
  | false => exact rfl
  | true =>
    -- with the lock, the rows change nothing
    refine Prog.perform_bind_obeys trivial fun (rows : Option (List Buffer.SMSRecord)) => ?_
    cases rows with
    | none => exact ⟨rfl, fun _ => rfl⟩
    | some rows =>
      have hoff : ∀ c, c.offAcks → (ask c).Calls (Steady ⟨true, none⟩) :=
        fun c hc => calls_ask (steady_offAcks c hc)
      have hok : ∀ c, c.common → (ask c).Calls (Steady ⟨true, none⟩) :=
        fun c hc => hoff c (offAcks_of_common hc)
      have hrows : (flushRows cfg n rows).Calls (Steady ⟨true, none⟩) :=
        closed_flushRows (Prog.closed_calls _) hok
          (closed_writeJSON (Prog.closed_calls _) hok fun _ => hoff _ rfl)
          (fun _ => calls_ask ⟨rfl, fun _ => rfl⟩) (fun _ => calls_ask ⟨rfl, fun _ => rfl⟩) rows
      exact hrows.bind_obeys (fun _ h => h) fun _ => ⟨rfl, fun _ => rfl⟩

theorem idles_block (l : Label) : Idles (block cfg l) := by
  cases l with
  | run n => exact closed_run closed_idles idles_common idles_writeJSON
  | start n role => exact (idles_ask rfl).bind fun _ => idles_pure _
  | loop n role =>
    cases role with
    | writer => exact closed_writer closed_idles idles_common idles_writeJSON (idles_ask rfl)
    | reader => exact closed_reader closed_idles idles_common (idles_ask rfl) idles_handleInbound
    | flushOnConnect => exact idles_flushBuffer.bind fun _ => idles_pure _
    | periodicFlush => exact closed_periodicFlush closed_idles idles_common idles_flushBuffer
    | purge => exact closed_purge closed_idles idles_common

end Obeys

/-! ### The calls on `flushMu` and `pending` -/

/-- The calls on `flushMu` and the ACK channels. -/
def Call.usesAcks : Call → Bool
  | tryLock | unlock | registerAck _ | dropAck _ | takeAck _ | closeAck _ | drainAcks => true
  | _ => false

/-- Two worlds do not differ in `flushMu` and the ACK channels. -/
structure SameAcks (s s' : World) : Prop where
  flushMu : s'.flushMu = s.flushMu
  pending : s'.pending = s.pending
  made : s'.made = s.made
  closedAcks : s'.closedAcks = s.closedAcks

section

variable {s s' : World} {t : Thread} {ms : ℤ} {c : Call} {a : c.Ans}

/-- The other calls leave them alone. -/
theorem sameAcks_of_exec (hc : c.usesAcks = false) (hexec : s.exec t ms c a = some s') :
    SameAcks s s' := by
  have hleaves : c.Leaves fun s => (s.flushMu, s.pending, s.made, s.closedAcks) := by
    cases c with
    | tryLock | unlock | registerAck | dropAck | takeAck | closeAck | drainAcks => cases hc
    | _ => simp [Call.Leaves]
  have hsame := view_of_exec hleaves hexec
  simp only [Prod.mk.injEq] at hsame
  exact ⟨hsame.1, hsame.2.1, hsame.2.2.1, hsame.2.2.2⟩

theorem sameAcks_outer {v : Outer} (hstep : v.step s = some s') : SameAcks s s' := by
  have hsame := view_of_outer (f := fun s => (s.flushMu, s.pending, s.made, s.closedAcks))
    (by intros; rfl) hstep
  simp only [Prod.mk.injEq] at hsame
  exact ⟨hsame.1, hsame.2.1, hsame.2.2.1, hsame.2.2.2⟩

end

/-! ### What holds along the way -/

/-- One goroutine has `flushMu` at most, the channels are named in order, and the rows in `pending`
and their channels are told apart. -/
structure AckInv (s : World) (q : Thread → AckPhase) : Prop where
  mutex : ∀ t, (q t).locked → s.flushMu = true
  unique : ∀ t u, (q t).locked → (q u).locked → t = u
  rows : (s.pending.map Prod.fst).Nodup
  channels : (s.pending.map Prod.snd).Nodup
  pending_lt : ∀ p ∈ s.pending, p.2 < s.made
  closing_lt : ∀ t ch, (q t).closing = some ch → ch < s.made
  closed_lt : ∀ ch ∈ s.closedAcks, ch < s.made

section

variable {s s' : World} {q : Thread → AckPhase} {t : Thread} {ms id : ℤ} {ch : ℕ}

/-- Nothing has changed in `flushMu` and the ACK channels. -/
theorem AckInv.of_same (h : AckInv s q) (hs : SameAcks s s') : AckInv s' q := by
  obtain ⟨hmu, hpending, hmade, hclosed⟩ := hs
  constructor
  · rw [hmu]; exact h.mutex
  · exact h.unique
  · rw [hpending]; exact h.rows
  · rw [hpending]; exact h.channels
  · rw [hpending, hmade]; exact h.pending_lt
  · rw [hmade]; exact h.closing_lt
  · rw [hclosed, hmade]; exact h.closed_lt

/-- Rows are taken out of `pending`. -/
theorem AckInv.filter (h : AckInv s q) (keep : ℤ × ℕ → Bool) :
    AckInv { s with pending := s.pending.filter keep } q where
  mutex := h.mutex
  unique := h.unique
  rows := h.rows.sublist (List.filter_sublist.map _)
  channels := h.channels.sublist (List.filter_sublist.map _)
  pending_lt p hp := h.pending_lt p (List.mem_of_mem_filter hp)
  closing_lt := h.closing_lt
  closed_lt := h.closed_lt

/-- A goroutine that has `flushMu` as before takes a channel to close, or has closed one. -/
theorem AckInv.closing (h : AckInv s q) {found : Option ℕ} (hfound : ∀ ch ∈ found, ch < s.made) :
    AckInv s (Function.update q t { q t with closing := found }) := by
  have hlocked : ∀ u, (Function.update q t { q t with closing := found } u).locked =
      (q u).locked := by
    intro u
    by_cases hu : u = t
    · subst hu
      rw [Function.update_self]
    · rw [Function.update_of_ne hu]
  refine ⟨fun u => ?_, fun u v => ?_, h.rows, h.channels, h.pending_lt, fun u ch hu => ?_,
    h.closed_lt⟩
  · rw [hlocked]
    exact h.mutex u
  · rw [hlocked, hlocked]
    exact h.unique u v
  · by_cases hut : u = t
    · subst hut
      rw [Function.update_self] at hu
      exact hfound ch hu
    · rw [Function.update_of_ne hut] at hu
      exact h.closing_lt u ch hu

theorem mem_of_lookupPending (h : s.lookupPending id = some ch) : (id, ch) ∈ s.pending := by
  obtain ⟨p, hp, rfl⟩ := Option.map_eq_some_iff.mp h
  have hfirst := List.find?_some hp
  obtain rfl : p.1 = id := of_decide_eq_true hfirst
  exact List.mem_of_find?_eq_some hp

theorem lookupPending_eq (h : AckInv s q) (hmem : (id, ch) ∈ s.pending) :
    s.lookupPending id = some ch := by
  have hsome : (s.lookupPending id).isSome := by
    rw [World.lookupPending, Option.isSome_map, List.find?_isSome]
    exact ⟨(id, ch), hmem, decide_eq_true rfl⟩
  obtain ⟨ch', hch'⟩ := Option.isSome_iff_exists.mp hsome
  cases List.inj_on_of_nodup_map h.rows (mem_of_lookupPending hch') hmem rfl
  exact hch'

/-! ### Every call keeps the invariant -/

theorem ackInv_tryLock {ok : Bool} (h : AckInv s q) (hexec : s.exec t ms .tryLock ok = some s') :
    AckInv s' (Function.update q t { q t with locked := ok || (q t).locked }) := by
  obtain ⟨hok, hs⟩ := Option.ite_none_right_eq_some.mp hexec
  cases hs
  have hclosing : ∀ u, (Function.update q t { q t with locked := ok || (q t).locked } u).closing =
      (q u).closing := by
    intro u
    by_cases hu : u = t
    · subst hu
      rw [Function.update_self]
    · rw [Function.update_of_ne hu]
  refine ⟨fun _ _ => rfl, ?_, h.rows, h.channels, h.pending_lt, fun u ch hu => ?_, h.closed_lt⟩
  · cases ok with
    | false =>
      rw [Bool.false_or, Function.update_eq_self]
      exact h.unique
    | true =>
      -- nobody had the lock
      have hfree : ∀ u, (q u).locked = false := by
        intro u
        refine Bool.eq_false_iff.mpr fun hu => ?_
        rw [h.mutex u hu] at hok
        cases hok
      intro u v hu hv
      by_cases hut : u = t
      · by_cases hvt : v = t
        · exact hut.trans hvt.symm
        · rw [Function.update_of_ne hvt, hfree] at hv
          cases hv
      · rw [Function.update_of_ne hut, hfree] at hu
        cases hu
  · rw [hclosing] at hu
    exact h.closing_lt u ch hu

theorem ackInv_unlock (h : AckInv s q) (hlocked : (q t).locked)
    (hexec : s.exec t ms .unlock () = some s') :
    AckInv s' (Function.update q t { q t with locked := false }) := by
  cases hexec
  obtain ⟨held, hheld⟩ := exists_hold t false { s with flushMu := false }
  rw [hheld]
  refine AckInv.of_same (s := { s with flushMu := false }) ?_ ⟨rfl, rfl, rfl, rfl⟩
  -- the others did not have the lock
  have hall : ∀ u, (Function.update q t { q t with locked := false } u).locked = false := by
    intro u
    by_cases hu : u = t
    · subst hu
      rw [Function.update_self]
    · rw [Function.update_of_ne hu]
      exact Bool.eq_false_iff.mpr fun hu' => hu (h.unique u t hu' hlocked)
  refine ⟨fun u hu => ?_, fun u _ hu => ?_, h.rows, h.channels, h.pending_lt, fun u ch hu => ?_,
    h.closed_lt⟩
  · rw [hall] at hu
    cases hu
  · rw [hall] at hu
    cases hu
  · by_cases hut : u = t
    · subst hut
      rw [Function.update_self] at hu
      exact h.closing_lt u ch hu
    · rw [Function.update_of_ne hut] at hu
      exact h.closing_lt u ch hu

/-- The row gets a new channel, unless `pending` is full. -/
theorem eq_of_registerAck {made : Option ℕ}
    (hexec : s.exec t ms (.registerAck id) made = some s') :
    s' = s ∨ s' = { s with pending := s.setPending id s.made, made := s.made + 1 } := by
  by_cases hfull : maxPendingACKs ≤ s.pending.length
  · simp only [World.exec, if_pos hfull] at hexec
    exact .inl (Option.some.inj (Option.ite_none_right_eq_some.mp hexec).2).symm
  · simp only [World.exec, if_neg hfull] at hexec
    exact .inr (Option.some.inj (Option.ite_none_right_eq_some.mp hexec).2).symm

theorem ackInv_registerAck {made : Option ℕ} (h : AckInv s q)
    (hexec : s.exec t ms (.registerAck id) made = some s') : AckInv s' q := by
  rcases eq_of_registerAck hexec with rfl | rfl
  · exact h
  · have hrest := h.filter (·.1 ≠ id)
    have hrow : id ∉ (s.pending.filter (·.1 ≠ id)).map Prod.fst := by
      intro hmem
      obtain ⟨p, hp, heq⟩ := List.mem_map.mp hmem
      exact of_decide_eq_true (List.mem_filter.mp hp).2 heq
    have hchannel : s.made ∉ (s.pending.filter (·.1 ≠ id)).map Prod.snd := by
      intro hmem
      obtain ⟨p, hp, heq⟩ := List.mem_map.mp hmem
      exact absurd heq (hrest.pending_lt p hp).ne
    refine ⟨h.mutex, h.unique, hrest.rows.cons hrow, hrest.channels.cons hchannel, ?_, ?_, ?_⟩
    · intro p hp
      rcases List.mem_cons.mp hp with rfl | hp
      · exact Nat.lt_succ_self _
      · exact Nat.lt_succ_of_lt (hrest.pending_lt p hp)
    · exact fun u ch hu => Nat.lt_succ_of_lt (h.closing_lt u ch hu)
    · exact fun ch hch => Nat.lt_succ_of_lt (h.closed_lt ch hch)

/-- The calls for which a goroutine needs `flushMu`. -/
def Call.needsLock : Call → Bool
  | registerAck _ | dropAck _ | unlock => true
  | _ => false

theorem locked_of_allows {p : AckPhase} {c : Call} (hallow : ackProtocol.allows p c)
    (hc : c.needsLock) : p.locked := by
  obtain ⟨locked, closing⟩ := p
  cases closing with
  | some ch =>
    obtain rfl : c = .closeAck ch := hallow
    cases hc
  | none =>
    cases c with
    | registerAck | dropAck | unlock => exact hallow
    | _ => cases hc

/-- A goroutine closes the channel that it has taken. -/
theorem closing_of_allows {p : AckPhase} (hallow : ackProtocol.allows p (.closeAck ch)) :
    p.closing = some ch := by
  obtain ⟨locked, closing⟩ := p
  cases closing with
  | some ch' =>
    cases (show Call.closeAck ch = .closeAck ch' from hallow)
    rfl
  | none => exact hallow.elim

theorem AckInv.call {c : Call} {a : c.Ans} (h : AckInv s q)
    (hallow : ackProtocol.allows (q t) c) (hexec : s.exec t ms c a = some s') :
    AckInv s' (Function.update q t (ackProtocol.next (q t) c a)) := by
  -- most calls leave the position alone
  have hstay : AckInv s' q → AckInv s' (Function.update q t (q t)) := by
    rw [Function.update_eq_self]
    exact id
  cases c with
  | tryLock => exact ackInv_tryLock h hexec
  | unlock => exact ackInv_unlock h (locked_of_allows hallow rfl) hexec
  | registerAck id => exact hstay (ackInv_registerAck h hexec)
  | dropAck id =>
    cases hexec
    exact hstay (h.filter (·.1 ≠ id))
  | takeAck id =>
    obtain ⟨rfl, hs⟩ := Option.ite_none_right_eq_some.mp hexec
    cases hs
    refine (h.filter (·.1 ≠ id)).closing fun ch hch => ?_
    exact h.pending_lt _ (mem_of_lookupPending hch)
  | closeAck ch =>
    cases hexec
    have hclosed : AckInv s (Function.update q t { q t with closing := none }) :=
      h.closing fun _ hch => nomatch hch
    refine { hclosed with closed_lt := fun ch' hch' => ?_ }
    rcases List.mem_append.mp hch' with hch' | hch'
    · exact h.closed_lt ch' hch'
    · rw [List.mem_singleton.mp hch']
      exact h.closing_lt t ch (closing_of_allows hallow)
  | drainAcks =>
    cases hexec
    refine hstay { h with rows := .nil, channels := .nil, pending_lt := nofun, closed_lt := ?_ }
    intro ch hch
    rcases List.mem_append.mp hch with hch | hch
    · exact h.closed_lt ch hch
    · obtain ⟨p, hp, rfl⟩ := List.mem_map.mp hch
      exact h.pending_lt p hp
  | _ => exact hstay (h.of_same (sameAcks_of_exec rfl hexec))

end

/-- The proof outline. -/
def ackOutline (cfg : ManagerConfig) :
    System.Outline (managerSystem cfg) fun _ => ackProtocol where
  head _ _ q := q = .idle
  final _ _ q := q = .idle
  inv := AckInv
  block_obeys t l q hq := by
    subst hq
    refine Prog.Obeys.mono (idles_block l) fun res q hq => ?_
    cases res with
    | inl l => exact hq
    | inr r => exact hq
  call_inv _ _ _ _ _ _ _ hinv hallow hexec := hinv.call hallow hexec
  env_inv _ _ _ _ hinv hstep := hinv.of_same (sameAcks_outer hstep)
  crash_inv _ _ _ _ _ _ hcrash := nomatch hcrash

/-! ### A wait for an ACK -/

section

variable {s s' : World} {q : Thread → AckPhase} {t : Thread} {ms id : ℤ} {ch : ℕ}

/-- What is known of the channel `ch` that a flush has registered for row `id`, by how far the first
ACK for the row is. -/
def Awaited (id : ℤ) (ch : ℕ) (s : World) (q : Thread → AckPhase) : AckProgress → Prop
  | .unseen => (id, ch) ∈ s.pending ∧ (∀ t, (q t).closing ≠ some ch) ∧ ch ∉ s.closedAcks
  | .lookedUp t => (q t).closing = some ch ∧ (∀ u, u ≠ t → (q u).closing ≠ some ch) ∧
      ch ∉ s.pending.map Prod.snd ∧ ch ∉ s.closedAcks
  | .handled | .drained => ch ∈ s.closedAcks

variable {p : AckProgress} {u : Thread}

/-- Nothing has changed in the ACK channels. -/
theorem Awaited.of_same {q' : Thread → AckPhase} (h : Awaited id ch s q p)
    (hpending : s'.pending = s.pending) (hclosed : s'.closedAcks = s.closedAcks)
    (hclosing : ∀ u, (q' u).closing = (q u).closing) : Awaited id ch s' q' p := by
  cases p with
  | unseen =>
    obtain ⟨hmem, hfree, hopen⟩ := h
    exact ⟨hpending ▸ hmem, fun u => hclosing u ▸ hfree u, hclosed ▸ hopen⟩
  | lookedUp t =>
    obtain ⟨ht, hothers, hgone, hopen⟩ := h
    exact ⟨hclosing t ▸ ht, fun u hu => hclosing u ▸ hothers u hu, hpending ▸ hgone,
      hclosed ▸ hopen⟩
  | handled | drained =>
    have hmem : ch ∈ s.closedAcks := h
    rw [← hclosed] at hmem
    exact hmem

/-- The goroutine that is to close the channel does so before anything else. -/
theorem Awaited.closes {c : Call} (h : Awaited id ch s q (.lookedUp u))
    (hallow : ackProtocol.allows (q u) c) : c = .closeAck ch := by
  simp only [ackProtocol, h.1] at hallow
  exact hallow

theorem Awaited.takeAck {id' : ℤ} {found : Option ℕ} (h : Awaited id ch s q p) (hinv : AckInv s q)
    (hallow : ackProtocol.allows (q u) (.takeAck id'))
    (hexec : s.exec u ms (.takeAck id') found = some s') :
    Awaited id ch s' (Function.update q u { q u with closing := found })
      (p.after id (.call u (.takeAck id') found s)) := by
  obtain ⟨rfl, hs⟩ := Option.ite_none_right_eq_some.mp hexec
  cases hs
  cases p with
  | unseen =>
    obtain ⟨hmem, hfree, hopen⟩ := h
    by_cases hid : id' = id
    · -- the channel is taken
      subst hid
      have hlookup := lookupPending_eq hinv hmem
      simp only [AckProgress.after, if_true]
      refine ⟨?_, fun v hv => ?_, fun hch => ?_, hopen⟩
      · rw [Function.update_self]
        exact hlookup
      · rw [Function.update_of_ne hv]
        exact hfree v
      · obtain ⟨r, hr, hreq⟩ := List.mem_map.mp hch
        obtain ⟨hr, hne⟩ := List.mem_filter.mp hr
        cases List.inj_on_of_nodup_map hinv.channels hr hmem hreq
        exact of_decide_eq_true hne rfl
    -- another id: its channel is another one, since no two requests share a channel
    · simp only [AckProgress.after, if_neg hid]
      refine ⟨List.mem_filter.mpr ⟨hmem, decide_eq_true (Ne.symm hid)⟩, fun v => ?_, hopen⟩
      by_cases hv : v = u
      · subst hv
        rw [Function.update_self]
        intro hfound
        have hother := mem_of_lookupPending hfound
        cases List.inj_on_of_nodup_map hinv.channels hother hmem rfl
        exact hid rfl
      · rw [Function.update_of_ne hv]
        exact hfree v
  | lookedUp t =>
    by_cases hut : u = t
    · subst hut
      cases h.closes hallow
    · obtain ⟨ht, hothers, hgone, hopen⟩ := h
      simp only [AckProgress.after, if_neg hut]
      refine ⟨?_, fun v hv => ?_, fun hch => ?_, hopen⟩
      · rw [Function.update_of_ne (Ne.symm hut)]
        exact ht
      · by_cases hvu : v = u
        · subst hvu
          rw [Function.update_self]
          -- the channel is no longer in the map, so no one else finds it
          exact fun hfound => hgone (List.mem_map_of_mem (mem_of_lookupPending hfound))
        · rw [Function.update_of_ne hvu]
          exact hothers v hv
      · exact hgone ((List.filter_sublist.map Prod.snd).subset hch)
  | handled | drained => exact h

theorem Awaited.closeAck {ch' : ℕ} (h : Awaited id ch s q p)
    (hallow : ackProtocol.allows (q u) (.closeAck ch'))
    (hexec : s.exec u ms (.closeAck ch') () = some s') :
    Awaited id ch s' (Function.update q u { q u with closing := none })
      (p.after id (.call u (.closeAck ch') () s)) := by
  cases hexec
  have hu := closing_of_allows hallow
  have hdone : ∀ v, (q v).closing ≠ some ch →
      (Function.update q u { q u with closing := none } v).closing ≠ some ch := by
    intro v hv
    by_cases hvu : v = u
    · subst hvu
      rw [Function.update_self]
      nofun
    · rwa [Function.update_of_ne hvu]
  -- another channel
  have hopen' : (q u).closing ≠ some ch → ch ∉ s.closedAcks → ch ∉ s.closedAcks ++ [ch'] := by
    intro hne hopen hmem
    rcases List.mem_append.mp hmem with hmem | hmem
    · exact hopen hmem
    · rw [List.mem_singleton.mp hmem] at hne
      exact hne hu
  cases p with
  | unseen =>
    obtain ⟨hmem, hfree, hopen⟩ := h
    exact ⟨hmem, fun v => hdone v (hfree v), hopen' (hfree u) hopen⟩
  | lookedUp t =>
    by_cases hut : u = t
    · subst hut
      cases h.closes hallow
      simp only [AckProgress.after, if_true]
      exact List.mem_append_right _ (List.mem_singleton_self ch)
    · obtain ⟨ht, hothers, hgone, hopen⟩ := h
      simp only [AckProgress.after, if_neg hut]
      refine ⟨?_, fun v hv => hdone v (hothers v hv), hgone, hopen' (hothers u hut) hopen⟩
      rw [Function.update_of_ne (Ne.symm hut)]
      exact ht
  | handled | drained => exact List.mem_append_left _ h

theorem Awaited.drainAcks (h : Awaited id ch s q p)
    (hallow : ackProtocol.allows (q u) .drainAcks) (hexec : s.exec u ms .drainAcks () = some s') :
    Awaited id ch s' q (p.after id (.call u .drainAcks () s)) := by
  cases hexec
  cases p with
  | unseen => exact List.mem_append_right _ (List.mem_map_of_mem h.1)
  | lookedUp t =>
    by_cases hut : u = t
    · subst hut
      cases h.closes hallow
    · obtain ⟨ht, hothers, hgone, hopen⟩ := h
      simp only [AckProgress.after, if_neg hut]
      exact ⟨ht, hothers, List.not_mem_nil, fun hmem => (List.mem_append.mp hmem).elim hopen hgone⟩
  | handled | drained => exact List.mem_append_left _ h

/-- The calls that close ACK channels or take them out of `pending`. -/
def Call.handlesAck : Call → Bool
  | takeAck _ | closeAck _ | drainAcks => true
  | _ => false

/-- The other calls do not move the handling of the ACK on. -/
theorem Awaited.after_eq {c : Call} {a : c.Ans} (h : Awaited id ch s q p)
    (hallow : ackProtocol.allows (q u) c) (hc : c.handlesAck = false) :
    p.after id (.call u c a s) = p := by
  cases p with
  | unseen =>
    cases c with
    | takeAck | drainAcks => cases hc
    | _ => rfl
  | lookedUp t =>
    by_cases hut : u = t
    · subst hut
      rw [h.closes hallow] at hc
      cases hc
    · exact if_neg hut
  | handled | drained => rfl

/-- A call of another goroutine, while a flush that has `flushMu` waits. -/
theorem Awaited.call {c : Call} {a : c.Ans} (h : Awaited id ch s q p) (hinv : AckInv s q)
    (hallow : ackProtocol.allows (q u) c) (hexec : s.exec u ms c a = some s')
    (hlock : c.needsLock = false) :
    Awaited id ch s' (Function.update q u (ackProtocol.next (q u) c a))
      (p.after id (.call u c a s)) := by
  cases c with
  | registerAck | dropAck | unlock => cases hlock
  | takeAck id' => exact h.takeAck hinv hallow hexec
  | drainAcks =>
    rw [show ackProtocol.next (q u) .drainAcks a = q u from rfl, Function.update_eq_self]
    exact h.drainAcks hallow hexec
  | closeAck ch' => exact h.closeAck hallow hexec
  | tryLock =>
    rw [h.after_eq hallow rfl]
    obtain ⟨-, hs⟩ := Option.ite_none_right_eq_some.mp hexec
    cases hs
    refine h.of_same rfl rfl fun v => ?_
    by_cases hv : v = u
    · subst hv
      rw [Function.update_self]
      rfl
    · rw [Function.update_of_ne hv]
  | _ =>
    rw [h.after_eq hallow rfl]
    have hsame := sameAcks_of_exec rfl hexec
    refine h.of_same hsame.pending hsame.closedAcks fun v => ?_
    rw [show ackProtocol.next (q u) _ a = q u from rfl, Function.update_eq_self]

theorem Awaited.outer {v : Outer} (h : Awaited id ch s q p) (hstep : v.step s = some s') :
    Awaited id ch s' q (p.after id (.env v s)) := by
  have hsame := sameAcks_outer hstep
  cases p with
  | unseen | lookedUp | handled | drained =>
    exact h.of_same hsame.pending hsame.closedAcks fun _ => rfl

/-- A new channel is awaited. -/
theorem awaited_registerAck (hinv : AckInv s q)
    (hexec : s.exec t ms (.registerAck id) (some ch) = some s') :
    Awaited id ch s' q .unseen := by
  by_cases hfull : maxPendingACKs ≤ s.pending.length
  · simp only [World.exec, if_pos hfull] at hexec
    obtain ⟨hnone, -⟩ := Option.ite_none_right_eq_some.mp hexec
    cases hnone
  · simp only [World.exec, if_neg hfull] at hexec
    obtain ⟨hch, hs⟩ := Option.ite_none_right_eq_some.mp hexec
    cases hch
    cases hs
    refine ⟨List.mem_cons_self, fun u hu => ?_, fun hmem => ?_⟩
    · exact absurd (hinv.closing_lt u _ hu) (lt_irrefl _)
    · exact absurd (hinv.closed_lt _ hmem) (lt_irrefl _)

end

/-- How far the goroutines are after a history. -/
abbrev ackPhases (past : History) : Thread → AckPhase :=
  System.positions (fun _ => ackProtocol) (fun _ => .idle) past

/-- What is known of the channel, as long as the flush waits. -/
theorem awaited_during {cfg : ManagerConfig} {t : Thread} {id : ℤ} {ch : ℕ} {s s₀ : World}
    {during earlier : History}
    (htraced : (ackOutline cfg).Traced (fun _ => .idle) s
      (during ++ .call t (.registerAck id) (some ch) s₀ :: earlier))
    (hduring : ∀ c a s, .call t c a s ∈ during → c = .timeAfter cfg.ackTimeout) :
    (ackPhases (during ++ .call t (.registerAck id) (some ch) s₀ :: earlier) t).locked ∧
      Awaited id ch s (ackPhases (during ++ .call t (.registerAck id) (some ch) s₀ :: earlier))
        (firstAck id during) := by
  induction during generalizing s with
  | nil =>
    obtain ⟨⟨-, ⟨ms, hexec⟩, hallow⟩, htraced⟩ := htraced
    have hexec : s₀.exec t ms (.registerAck id) (some ch) = some s := hexec
    have hsame : ackPhases (.call t (.registerAck id) (some ch) s₀ :: earlier) =
        ackPhases earlier := System.positions_call.trans (Function.update_eq_self t _)
    rw [List.nil_append, hsame]
    exact ⟨locked_of_allows hallow rfl, awaited_registerAck htraced.inv hexec⟩
  | cons x during ih =>
    obtain ⟨⟨-, hleads, hallow⟩, htraced⟩ := htraced
    obtain ⟨hlocked, hawaited⟩ :=
      ih htraced fun c a s hmem => hduring c a s (List.mem_cons_of_mem x hmem)
    cases x with
    | call u c a s₁ =>
      obtain ⟨ms, hexec⟩ := hleads
      have htimer : u = t → c = .timeAfter cfg.ackTimeout := by
        rintro rfl
        exact hduring c a s₁ List.mem_cons_self
      -- the flush has the lock, so this goroutine has not, or it is the flush and starts its timer
      have hlock : c.needsLock = false := by
        by_cases hut : u = t
        · rw [htimer hut]
          rfl
        · refine Bool.eq_false_iff.mpr fun hneeds => hut ?_
          exact htraced.inv.unique u t (locked_of_allows hallow hneeds) hlocked
      rw [List.cons_append, ackPhases, System.positions_call]
      refine ⟨?_, hawaited.call htraced.inv hallow hexec hlock⟩
      by_cases hut : u = t
      · obtain rfl := htimer hut
        subst hut
        rw [Function.update_self]
        exact hlocked
      · rw [Function.update_of_ne (Ne.symm hut)]
        exact hlocked
    | env v s₁ => exact ⟨hlocked, hawaited.outer hleads⟩
    | crash u s₁ =>
      obtain ⟨l, hcrash⟩ := hleads
      cases hcrash

/-- The first ACK for a row that was looked up since has been handled, or `pending` was drained at
the end of a session. -/
def Handled (id : ℤ) (during : History) : Prop :=
  firstAck id during = .handled ∨ firstAck id during = .drained

/-- The channel of a row is closed just when the ACK has been handled. -/
theorem Awaited.mem_closedAcks_iff {id : ℤ} {ch : ℕ} {s : World} {q : Thread → AckPhase}
    {during : History} (h : Awaited id ch s q (firstAck id during)) :
    ch ∈ s.closedAcks ↔ Handled id during := by
  unfold Handled
  generalize firstAck id during = progress at h
  cases progress with
  | unseen => exact iff_of_false h.2.2 nofun
  | lookedUp u => exact iff_of_false h.2.2.2 nofun
  | handled => exact iff_of_true h (.inl rfl)
  | drained => exact iff_of_true h (.inr rfl)

/-- **When an ACK ends the wait of a flush.**  In every run, take a wait of a flush for the ACK
channel that it has registered for a row.

* It is ended by the channel only if the first ACK for the row that was looked up after the channel
  was registered has been handled before, or `pending` was drained at the end of a session.  An ACK
  that was looked up earlier does not count, though the frame of the row may have been written.
* It can be ended by nothing but the channel if and only if this is so, the timer has not expired
  and the session is not over. -/
theorem ackWait_iff (cfg : ManagerConfig) (table : Buffer.Table) (c : RecordedConfig)
    (hreach : (managerSystem cfg).recorded.Reach
      ((managerSystem cfg).recorded.start ⟨World.new table, []⟩ entry) c)
    (t : Thread) (n : ℕ) (id : ℤ) (ch : ℕ) (timer : ℤ) (waited : Waited) (s s₀ : World)
    (later during earlier : History)
    (hhistory : c.state.history = later ++ .call t (.awaitAck n ch timer) waited s ::
      (during ++ .call t (.registerAck id) (some ch) s₀ :: earlier))
    (hduring : ∀ c a s, .call t c a s ∈ during → c = .timeAfter cfg.ackTimeout) :
    (waited = .acked → Handled id during) ∧
      ((∀ waited', s.ready n ch timer waited' → waited' = .acked) ↔
        Handled id during ∧ s.clock < timer ∧ s.sessionDone n = false) := by
  have hnew : AckInv (World.new table) fun _ => .idle :=
    ⟨nofun, nofun, .nil, .nil, nofun, nofun, nofun⟩
  obtain ⟨htraced, -⟩ := (ackOutline cfg).reach_traced (fun _ _ => rfl) hnew (fun _ => rfl) hreach
  rw [hhistory] at htraced
  obtain ⟨s₁, ⟨-, ⟨ms, hexec⟩, -⟩, htraced⟩ := htraced.of_append
  obtain ⟨-, hawaited⟩ := awaited_during htraced hduring
  obtain ⟨hready, -⟩ : s.ready n ch timer waited ∧ some s = some s₁ :=
    Option.ite_none_right_eq_some.mp hexec
  rw [← hawaited.mem_closedAcks_iff]
  refine ⟨?_, fun honly => ?_, ?_⟩
  · rintro rfl
    exact of_decide_eq_true hready
  · -- the wait was ended, so its channel was ready; the other cases were not
    obtain rfl := honly waited hready
    refine ⟨of_decide_eq_true hready, ?_, ?_⟩
    · by_contra hexpired
      cases honly .timeout (decide_eq_true (Int.not_lt.mp hexpired))
    · by_contra hdone
      cases honly .ctxDone (eq_true_of_ne_false hdone)
  · rintro ⟨-, hclock, hdone⟩ waited' hready'
    cases waited' with
    | acked => rfl
    | timeout => exact absurd (of_decide_eq_true hready') (Int.not_le.mpr hclock)
    | ctxDone =>
      rw [show s.sessionDone n = true from hready'] at hdone
      cases hdone

/-! ### An ACK that comes in time, and one that comes too early -/

/-- The answers in a run with an ACK for the first row. -/
def ackAnswer (found : Option ℕ) (waited : Waited) : (c : Call) → c.Ans
  | .readMessage _ => some (.smsDeliveredAck 1)
  | .registerAck _ => some (0 : ℕ)
  | .takeAck _ => found
  | .awaitAck _ _ _ => waited
  | c => sampleAnswer c

/-- The flush on connect of the first session. -/
abbrev firstFlush : Thread := .session 0 .flushOnConnect

/-- The reader of the first session. -/
abbrev firstReader : Thread := .session 0 .reader

/-- The run up to the ACK: a row waits, the session starts, its reader looks for a message and the
flush has written the row's frame. -/
def ackRun : List (System.Move Thread Call Call.Ans ℤ Outer) :=
  [.env (.insert .none 0 sampleMessage)] ++ sampleCalls 15 .run ++ sampleCalls 1 firstReader ++
    [.jump firstReader] ++ sampleCalls 1 firstReader ++ sampleCalls 1 firstFlush ++
    [.jump firstFlush] ++ sampleCalls 9 firstFlush

/-- The ACK comes while the flush waits. -/
def ackInTime : List (System.Move Thread Call Call.Ans ℤ Outer) :=
  ackRun ++ List.replicate 2 (.call firstFlush 0 (ackAnswer none .acked)) ++
    List.replicate 3 (.call firstReader 0 (ackAnswer (some 0) .acked)) ++
      [.call firstFlush 0 (ackAnswer none .acked)]

/-- The ACK comes before the flush has registered its channel, and then ten seconds pass. -/
def ackTooEarly : List (System.Move Thread Call Call.Ans ℤ Outer) :=
  ackRun ++ List.replicate 3 (.call firstReader 0 (ackAnswer none .timeout)) ++
    List.replicate 2 (.call firstFlush 0 (ackAnswer (some 0) .timeout)) ++
      [.env (.pass 10000000000), .call firstFlush 0 (ackAnswer none .timeout)]

/-- An ACK that comes in time ends the wait. -/
theorem ackWait_iff_in_time :
    ∃ (c : RecordedConfig) (timer : ℤ) (s s₀ : World) (during earlier : History),
      (managerSystem sampleConfig).recorded.Reach
        ((managerSystem sampleConfig).recorded.start ⟨World.new .empty, []⟩ entry) c ∧
      c.state.history = .call firstFlush (.awaitAck 0 0 timer) .acked s ::
        (during ++ .call firstFlush (.registerAck 1) (some (0 : ℕ)) s₀ :: earlier) ∧
      Handled 1 during ∧ ∀ waited, s.ready 0 0 timer waited → waited = .acked := by
  have hplay : ∃ c, (managerSystem sampleConfig).recorded.play
      ((managerSystem sampleConfig).recorded.start ⟨World.new .empty, []⟩ entry) ackInTime =
        some c ∧ ∃ timer s s₀ s₁ s₂ s₃ s₄ earlier, c.state.history =
        .call firstFlush (.awaitAck 0 0 timer) .acked s ::
          ([.call firstReader (.closeAck 0) () s₁,
            .call firstReader (.takeAck 1) (some (0 : ℕ)) s₂,
            .call firstReader (.readMessage 0) (some (.smsDeliveredAck 1)) s₃,
            .call firstFlush (.timeAfter sampleConfig.ackTimeout) timer s₄] ++
          .call firstFlush (.registerAck 1) (some (0 : ℕ)) s₀ :: earlier) ∧
        decide (s.clock < timer) = true ∧ s.sessionDone 0 = false := by
    -- `PendingRows` sorts the rows, and sorting is not unfolded by default
    with_unfolding_all exact ⟨_, rfl, _, _, _, _, _, _, _, _, rfl, rfl, rfl⟩
  obtain ⟨c, hc, timer, s, s₀, s₁, s₂, s₃, s₄, earlier, hhistory, hclock, hdone⟩ := hplay
  have hreach := System.reach_of_play hc
  refine ⟨c, timer, s, s₀, _, earlier, hreach, hhistory, .inl rfl, ?_⟩
  refine (ackWait_iff _ _ c hreach _ _ 1 _ _ .acked s s₀ [] _ earlier hhistory ?_).2.mpr
    ⟨.inl rfl, of_decide_eq_true hclock, hdone⟩
  -- the only call of the flush in between starts the timer
  intro c a s hmem
  rcases List.mem_cons.mp hmem with h | hmem
  · cases h
  rcases List.mem_cons.mp hmem with h | hmem
  · cases h
  rcases List.mem_cons.mp hmem with h | hmem
  · cases h
  cases List.mem_singleton.mp hmem
  rfl

/-- The frame of the row is written, the ACK for it is handled, and then the channel is registered:
the wait is ended by the timer. -/
theorem not_ackWait_early :
    ∃ c, (managerSystem sampleConfig).recorded.Reach
        ((managerSystem sampleConfig).recorded.start ⟨World.new .empty, []⟩ entry) c ∧
      ∃ e timer s₀ s₁ s₂ s₃ s₄ s₅ s₆ s₇ earlier, e.bufferID = 1 ∧ s₇.closedAcks = [] ∧
        c.state.history = .call firstFlush (.awaitAck 0 0 timer) .timeout s₇ ::
          .env (.pass 10000000000) s₆ ::
          .call firstFlush (.timeAfter sampleConfig.ackTimeout) timer s₅ ::
          .call firstFlush (.registerAck 1) (some (0 : ℕ)) s₄ ::
          .call firstReader (.markDelivered 1) true s₃ ::
          .call firstReader (.takeAck 1) (none : Option ℕ) s₂ ::
          .call firstReader (.readMessage 0) (some (.smsDeliveredAck 1)) s₁ ::
          .call firstFlush (.writeMessage 0 (.text (.event (.smsReceived e)))) true s₀ ::
          earlier := by
  have hplay : ∃ c, (managerSystem sampleConfig).recorded.play
      ((managerSystem sampleConfig).recorded.start ⟨World.new .empty, []⟩ entry) ackTooEarly =
        some c ∧ ∃ e timer s₀ s₁ s₂ s₃ s₄ s₅ s₆ s₇ earlier, e.bufferID = 1 ∧ s₇.closedAcks = [] ∧
        c.state.history = .call firstFlush (.awaitAck 0 0 timer) .timeout s₇ ::
          .env (.pass 10000000000) s₆ ::
          .call firstFlush (.timeAfter sampleConfig.ackTimeout) timer s₅ ::
          .call firstFlush (.registerAck 1) (some (0 : ℕ)) s₄ ::
          .call firstReader (.markDelivered 1) true s₃ ::
          .call firstReader (.takeAck 1) (none : Option ℕ) s₂ ::
          .call firstReader (.readMessage 0) (some (.smsDeliveredAck 1)) s₁ ::
          .call firstFlush (.writeMessage 0 (.text (.event (.smsReceived e)))) true s₀ ::
          earlier := by
    with_unfolding_all exact ⟨_, rfl, _, _, _, _, _, _, _, _, _, _, _, rfl, rfl, rfl⟩
  obtain ⟨c, hc, hhistory⟩ := hplay
  exact ⟨c, System.reach_of_play hc, hhistory⟩

end SmsGate.Tunnel
