import SmsGate.Tunnel.Equiv.AckWait

/-!
# ACK channels are closed once

Three parties take ACK channels out of `pending`: `AckDelivered`, which closes its channel when it
has left `ackMu`, the flush, which drops a channel that it has waited for too long, and the end of a
session, which closes all that are left under `ackMu`.  Closing a channel twice would panic.

A channel that was made is in `pending`, in the hands of one goroutine that is about to close it, or
closed, or it was dropped, and it is in one of these places only (`CloseInv`).

The results are about more than the goroutines of a manager: next to them there may be any number of
other calls of `AckDelivered`, with any ids and at any time (`ackersSystem`).

* `closedAcks_nodup`: no channel is closed twice, and what is in `pending` is not closed.
-/

namespace SmsGate.Tunnel

/-! ### A manager and callers of `AckDelivered` -/

/-- The goroutines of a manager, and other callers of `AckDelivered`. -/
inductive Acker where
  | own (t : Thread)
  | caller (k : ℕ)
  deriving DecidableEq

/-- Where a goroutine is; a caller is at its call for a row. -/
inductive AckerLabel where
  | own (l : Label)
  | ackDelivered (id : ℤ)

/-- The code of a goroutine at a label. -/
def ackerBlock (cfg : ManagerConfig) : AckerLabel → Io (AckerLabel ⊕ Unit)
  | .own l => do return (← block cfg l).map .own id
  | .ackDelivered id => do
    ackDelivered id
    return .inr ()

/-- The goroutine that `World.exec` keeps its history by; that of a caller does not matter. -/
def Acker.thread : Acker → Thread
  | own t => t
  | caller _ => .run

/-- A manager, next to the rest of the gateway and to other callers of `AckDelivered`. -/
def ackersSystem (cfg : ManagerConfig) :
    System Acker World Call Call.Ans AckerLabel Unit ℤ Outer where
  block _ l := ackerBlock cfg l
  exec t ms s c a := s.exec t.thread ms c a
  env v s := v.step s
  crash _ _ := none

/-- Where the goroutines start, given the rows of the callers. -/
def ackersEntry (ids : ℕ → ℤ) : Acker → AckerLabel
  | .own t => .own (entry t)
  | .caller k => .ackDelivered (ids k)

/-! ### Where a channel is -/

/-- The channels are named in order, and a channel is in `pending`, in the hands of one goroutine or
closed, and only once in one of these places. -/
structure CloseInv {T : Type} (s : World) (q : T → AckPhase) : Prop where
  pending_lt : ∀ p ∈ s.pending, p.2 < s.made
  closing_lt : ∀ t ch, (q t).closing = some ch → ch < s.made
  closed_lt : ∀ ch ∈ s.closedAcks, ch < s.made
  channels : (s.pending.map Prod.snd).Nodup
  closed : s.closedAcks.Nodup
  pending_open : ∀ p ∈ s.pending, p.2 ∉ s.closedAcks
  closing_open : ∀ t ch, (q t).closing = some ch → ch ∉ s.closedAcks
  closing_taken : ∀ t ch, (q t).closing = some ch → ch ∉ s.pending.map Prod.snd
  closing_unique : ∀ t u ch, (q t).closing = some ch → (q u).closing = some ch → t = u

section

variable {T : Type} {s s' : World} {q q' : T → AckPhase}

/-- Only what the goroutines are about to close matters of their positions. -/
theorem CloseInv.congr (h : CloseInv s q) (hclosing : ∀ t, (q' t).closing = (q t).closing) :
    CloseInv s q' := by
  constructor
  · exact h.pending_lt
  · intro t ch ht
    rw [hclosing] at ht
    exact h.closing_lt t ch ht
  · exact h.closed_lt
  · exact h.channels
  · exact h.closed
  · exact h.pending_open
  · intro t ch ht
    rw [hclosing] at ht
    exact h.closing_open t ch ht
  · intro t ch ht
    rw [hclosing] at ht
    exact h.closing_taken t ch ht
  · intro t u ch ht hu
    rw [hclosing] at ht hu
    exact h.closing_unique t u ch ht hu

theorem CloseInv.of_same (h : CloseInv s q) (hpending : s'.pending = s.pending)
    (hmade : s'.made = s.made) (hclosed : s'.closedAcks = s.closedAcks) : CloseInv s' q := by
  obtain ⟨h₁, h₂, h₃, h₄, h₅, h₆, h₇, h₈, h₉⟩ := h
  constructor
  · rw [hpending, hmade]; exact h₁
  · rw [hmade]; exact h₂
  · rw [hclosed, hmade]; exact h₃
  · rw [hpending]; exact h₄
  · rw [hclosed]; exact h₅
  · rw [hpending, hclosed]; exact h₆
  · rw [hclosed]; exact h₇
  · rw [hpending]; exact h₈
  · exact h₉

/-- Rows are taken out of `pending`. -/
theorem CloseInv.filter (h : CloseInv s q) (keep : ℤ × ℕ → Bool) :
    CloseInv { s with pending := s.pending.filter keep } q where
  pending_lt p hp := h.pending_lt p (List.mem_of_mem_filter hp)
  closing_lt := h.closing_lt
  closed_lt := h.closed_lt
  channels := h.channels.sublist (List.filter_sublist.map _)
  closed := h.closed
  pending_open p hp := h.pending_open p (List.mem_of_mem_filter hp)
  closing_open := h.closing_open
  closing_taken t ch ht hmem := h.closing_taken t ch ht ((List.filter_sublist.map _).subset hmem)
  closing_unique := h.closing_unique

/-- A new channel for a row. -/
theorem CloseInv.register (h : CloseInv s q) (id : ℤ) :
    CloseInv { s with pending := s.setPending id s.made, made := s.made + 1 } q := by
  have hrest := h.filter (·.1 ≠ id)
  have hfresh : s.made ∉ (s.pending.filter (·.1 ≠ id)).map Prod.snd := by
    intro hmem
    obtain ⟨p, hp, heq⟩ := List.mem_map.mp hmem
    exact absurd heq (hrest.pending_lt p hp).ne
  constructor
  · intro p hp
    rcases List.mem_cons.mp hp with rfl | hp
    · exact Nat.lt_succ_self _
    · exact Nat.lt_succ_of_lt (hrest.pending_lt p hp)
  · intro t ch ht
    exact Nat.lt_succ_of_lt (h.closing_lt t ch ht)
  · intro ch hch
    exact Nat.lt_succ_of_lt (h.closed_lt ch hch)
  · exact hrest.channels.cons hfresh
  · exact h.closed
  · intro p hp hclosed
    rcases List.mem_cons.mp hp with rfl | hp
    · exact absurd (h.closed_lt _ hclosed) (lt_irrefl _)
    · exact hrest.pending_open p hp hclosed
  · exact h.closing_open
  · intro t ch ht hmem
    rcases List.mem_cons.mp hmem with rfl | hmem
    · exact absurd (h.closing_lt t _ ht) (lt_irrefl _)
    · exact hrest.closing_taken t ch ht hmem
  · exact h.closing_unique

/-- The end of a session closes what is in `pending`. -/
theorem CloseInv.drain (h : CloseInv s q) :
    CloseInv { s with closedAcks := s.closedAcks ++ s.pending.map Prod.snd, pending := [] } q := by
  have hapart : List.Disjoint s.closedAcks (s.pending.map Prod.snd) := by
    intro ch hclosed hmem
    obtain ⟨p, hp, rfl⟩ := List.mem_map.mp hmem
    exact h.pending_open p hp hclosed
  constructor
  · exact List.forall_mem_nil _
  · exact h.closing_lt
  · intro ch hch
    rcases List.mem_append.mp hch with hch | hch
    · exact h.closed_lt ch hch
    · obtain ⟨p, hp, rfl⟩ := List.mem_map.mp hch
      exact h.pending_lt p hp
  · exact List.nodup_nil
  · exact h.closed.append h.channels hapart
  · exact List.forall_mem_nil _
  · intro t ch ht hch
    rcases List.mem_append.mp hch with hch | hch
    · exact h.closing_open t ch ht hch
    · exact h.closing_taken t ch ht hch
  · exact fun _ _ _ => List.not_mem_nil
  · exact h.closing_unique

variable [DecidableEq T] {t : T}

/-- `AckDelivered` takes the channel of a row. -/
theorem CloseInv.take (h : CloseInv s q) (id : ℤ) :
    CloseInv { s with pending := s.pending.filter (·.1 ≠ id) }
      (Function.update q t { q t with closing := s.lookupPending id }) := by
  have hrest := h.filter (·.1 ≠ id)
  -- what is in the hands of a goroutine now was there before, or is the channel of the row
  have hcases : ∀ u ch, (Function.update q t { q t with closing := s.lookupPending id } u).closing =
      some ch → u ≠ t ∧ (q u).closing = some ch ∨ u = t ∧ (id, ch) ∈ s.pending := by
    intro u ch hu
    by_cases hut : u = t
    · subst hut
      rw [Function.update_self] at hu
      exact .inr ⟨rfl, mem_of_lookupPending hu⟩
    · rw [Function.update_of_ne hut] at hu
      exact .inl ⟨hut, hu⟩
  constructor
  · exact hrest.pending_lt
  · intro u ch hu
    rcases hcases u ch hu with ⟨-, hu⟩ | ⟨-, hmem⟩
    · exact h.closing_lt u ch hu
    · exact h.pending_lt _ hmem
  · exact h.closed_lt
  · exact hrest.channels
  · exact h.closed
  · exact hrest.pending_open
  · intro u ch hu
    rcases hcases u ch hu with ⟨-, hu⟩ | ⟨-, hmem⟩
    · exact h.closing_open u ch hu
    · exact h.pending_open _ hmem
  · intro u ch hu hch
    rcases hcases u ch hu with ⟨-, hu⟩ | ⟨-, hmem⟩
    · exact hrest.closing_taken u ch hu hch
    · -- no other row has this channel
      obtain ⟨p, hp, hchannel⟩ := List.mem_map.mp hch
      obtain ⟨hp, hne⟩ := List.mem_filter.mp hp
      cases List.inj_on_of_nodup_map h.channels hp hmem hchannel
      exact of_decide_eq_true hne rfl
  · intro u v ch hu hv
    have htaken : ∀ u, (q u).closing = some ch → (id, ch) ∉ s.pending := by
      intro u hu hmem
      exact h.closing_taken u ch hu (List.mem_map_of_mem hmem)
    rcases hcases u ch hu with ⟨-, hu⟩ | ⟨rfl, hmem⟩
    · rcases hcases v ch hv with ⟨-, hv⟩ | ⟨-, hmem⟩
      · exact h.closing_unique u v ch hu hv
      · exact absurd hmem (htaken u hu)
    · rcases hcases v ch hv with ⟨-, hv⟩ | ⟨rfl, -⟩
      · exact absurd hmem (htaken v hv)
      · rfl

/-- `AckDelivered` closes the channel that it has taken. -/
theorem CloseInv.close {ch : ℕ} (h : CloseInv s q) (ht : (q t).closing = some ch) :
    CloseInv { s with closedAcks := s.closedAcks ++ [ch] }
      (Function.update q t { q t with closing := none }) := by
  have hcases : ∀ u ch', (Function.update q t { q t with closing := none } u).closing = some ch' →
      (q u).closing = some ch' ∧ ch' ≠ ch := by
    intro u ch' hu
    by_cases hut : u = t
    · subst hut
      rw [Function.update_self] at hu
      cases hu
    · rw [Function.update_of_ne hut] at hu
      refine ⟨hu, ?_⟩
      rintro rfl
      exact hut (h.closing_unique u t ch' hu ht)
  constructor
  · exact h.pending_lt
  · exact fun u ch' hu => h.closing_lt u ch' (hcases u ch' hu).1
  · intro ch' hch'
    rcases List.mem_append.mp hch' with hch' | hch'
    · exact h.closed_lt ch' hch'
    · rw [List.mem_singleton.mp hch']
      exact h.closing_lt t ch ht
  · exact h.channels
  · refine h.closed.append (List.nodup_singleton ch) (List.disjoint_singleton.mpr ?_)
    exact h.closing_open t ch ht
  · intro p hp hclosed
    rcases List.mem_append.mp hclosed with hclosed | hclosed
    · exact h.pending_open p hp hclosed
    · rw [← List.mem_singleton.mp hclosed] at ht
      exact h.closing_taken t p.2 ht (List.mem_map_of_mem hp)
  · intro u ch' hu hclosed
    obtain ⟨hu, hne⟩ := hcases u ch' hu
    rcases List.mem_append.mp hclosed with hclosed | hclosed
    · exact h.closing_open u ch' hu hclosed
    · exact hne (List.mem_singleton.mp hclosed)
  · exact fun u ch' hu => h.closing_taken u ch' (hcases u ch' hu).1
  · exact fun u v ch' hu hv => h.closing_unique u v ch' (hcases u ch' hu).1 (hcases v ch' hv).1

/-! ### Every call keeps it -/

theorem CloseInv.call {u : Thread} {ms : ℤ} {c : Call} {a : c.Ans} (h : CloseInv s q)
    (hallow : ackProtocol.allows (q t) c) (hexec : s.exec u ms c a = some s') :
    CloseInv s' (Function.update q t (ackProtocol.next (q t) c a)) := by
  -- most calls do not change what the goroutine is about to close
  have hstay : ∀ p : AckPhase, p.closing = (q t).closing → CloseInv s' q →
      CloseInv s' (Function.update q t p) := by
    intro p hp h
    refine h.congr fun v => ?_
    by_cases hv : v = t
    · subst hv
      rw [Function.update_self]
      exact hp
    · rw [Function.update_of_ne hv]
  cases c with
  | tryLock =>
    obtain ⟨-, hs⟩ := Option.ite_none_right_eq_some.mp hexec
    cases hs
    exact hstay _ rfl (h.of_same rfl rfl rfl)
  | unlock =>
    cases hexec
    obtain ⟨held, hheld⟩ := exists_hold u false { s with flushMu := false }
    refine hstay _ rfl ?_
    rw [hheld]
    exact h.of_same rfl rfl rfl
  | registerAck id =>
    refine hstay _ rfl ?_
    rcases eq_of_registerAck hexec with rfl | rfl
    · exact h
    · exact h.register id
  | dropAck id =>
    cases hexec
    exact hstay _ rfl (h.filter (·.1 ≠ id))
  | takeAck id =>
    obtain ⟨rfl, hs⟩ := Option.ite_none_right_eq_some.mp hexec
    cases hs
    exact h.take id
  | closeAck ch =>
    cases hexec
    exact h.close (closing_of_allows hallow)
  | drainAcks =>
    cases hexec
    exact hstay _ rfl h.drain
  | _ =>
    have hsame := sameAcks_of_exec rfl hexec
    exact hstay _ rfl (h.of_same hsame.pending hsame.made hsame.closedAcks)

end

/-! ### Whole runs -/

theorem idles_ackerBlock (cfg : ManagerConfig) (l : AckerLabel) : Idles (ackerBlock cfg l) := by
  cases l with
  | own l => exact (idles_block l).bind fun _ => idles_pure _
  | ackDelivered id => exact (idles_ackDelivered id).bind fun _ => idles_pure _

/-- The proof outline. -/
def closeOutline (cfg : ManagerConfig) :
    System.Outline (ackersSystem cfg) fun _ => ackProtocol where
  head _ _ q := q = .idle
  final _ _ q := q = .idle
  inv := CloseInv
  block_obeys t l q hq := by
    subst hq
    refine Prog.Obeys.mono (idles_ackerBlock cfg l) fun res q hq => ?_
    cases res with
    | inl l => exact hq
    | inr r => exact hq
  call_inv _ _ _ _ _ _ _ hinv hallow hexec := hinv.call hallow hexec
  env_inv _ _ _ _ hinv hstep := by
    have hsame := sameAcks_outer hstep
    exact hinv.of_same hsame.pending hsame.made hsame.closedAcks
  crash_inv _ _ _ _ _ _ hcrash := nomatch hcrash

/-- **No ACK channel is closed twice.**  In every state of every run of a manager, over any number
of sessions and next to any number of calls of `AckDelivered` with any ids, the channels that were
closed are all different, and no channel in `pending` is closed. -/
theorem closedAcks_nodup (cfg : ManagerConfig) (table : Buffer.Table) (ids : ℕ → ℤ)
    (c : System.Config Acker World Call Call.Ans AckerLabel Unit)
    (hreach : (ackersSystem cfg).Reach
      ((ackersSystem cfg).start (World.new table) (ackersEntry ids)) c) :
    c.state.closedAcks.Nodup ∧ ∀ p ∈ c.state.pending, p.2 ∉ c.state.closedAcks := by
  have hnew : CloseInv (World.new table) fun _ : Acker => AckPhase.idle :=
    ⟨nofun, nofun, nofun, .nil, .nil, nofun, nofun, nofun, nofun⟩
  have hstart : (closeOutline cfg).Holds
      ((ackersSystem cfg).start (World.new table) (ackersEntry ids)) :=
    (closeOutline cfg).holds_start hnew fun _ => rfl
  obtain ⟨q, hinv, -⟩ := (closeOutline cfg).reach hstart hreach
  exact ⟨hinv.closed, hinv.pending_open⟩

/-! ### Two ACKs for one row -/

/-- A move of a manager's goroutines among those of other callers. -/
def ownMove : System.Move Thread Call Call.Ans ℤ Outer → System.Move Acker Call Call.Ans ℤ Outer
  | .call t ms answer => .call (.own t) ms answer
  | .jump t => .jump (.own t)
  | .env v => .env v
  | .crash t => .crash (.own t)

/-- A flush has registered the channel of a row and waits.  A caller takes the channel, the reader
gets a second ACK for the row and finds nothing, and the caller closes the channel. -/
def twoAcks : List (System.Move Acker Call Call.Ans ℤ Outer) :=
  ackRun.map ownMove ++ [.call (.own firstFlush) 0 (ackAnswer none .acked)] ++
    [.call (.caller 0) 0 (ackAnswer (some 0) .acked)] ++
    List.replicate 3 (.call (.own firstReader) 0 (ackAnswer none .acked)) ++
    [.call (.caller 0) 0 (ackAnswer none .acked)]

/-- The channel is closed once. -/
theorem closedAcks_nodup_two_acks :
    ∃ c, (ackersSystem sampleConfig).Reach
        ((ackersSystem sampleConfig).start (World.new .empty) (ackersEntry fun _ => 1)) c ∧
      c.state.closedAcks = [0] ∧ c.state.closedAcks.Nodup ∧
        ∀ p ∈ c.state.pending, p.2 ∉ c.state.closedAcks := by
  have hplay : ∃ c, (ackersSystem sampleConfig).play
      ((ackersSystem sampleConfig).start (World.new .empty) (ackersEntry fun _ => 1)) twoAcks =
        some c ∧ c.state.closedAcks = [0] := by
    -- `PendingRows` sorts the rows, and sorting is not unfolded by default
    with_unfolding_all exact ⟨_, rfl, rfl⟩
  obtain ⟨c, hc, hclosed⟩ := hplay
  have hreach := System.reach_of_play hc
  exact ⟨c, hreach, hclosed, closedAcks_nodup _ _ _ c hreach⟩

end SmsGate.Tunnel
