import SmsGate.Tunnel.Equiv.Footprint

/-!
# Who writes to a connection

The WebSocket library allows one goroutine at a time in `SetWriteDeadline` and `WriteMessage` of a
connection.  `Run` writes the `HELLO` of a session before it starts its goroutines, and `flushMu`
keeps one flush from another.  Nothing keeps the writer from a flush.

* `single_writer_iff`: over all runs, two goroutines are writing to one connection only if they are
  its writer and one of its flushes; and none are in the runs in which the writer takes no event
  while a flush has rows in hand, and a flush finds no rows while the writer has an event in hand;
* `not_single_writer`: a run in which a writer and a flush are both in `writeJSON`.
-/

namespace SmsGate.Tunnel

open Go

/-- The connection to which a call writes: the calls inside `writeJSON`, and `WriteMessage`. -/
def Call.conn : Call → Option ℕ
  | marshal n _ | writeTime n | setWriteDeadline n _ | writeMessage n _ => some n
  | _ => none

/-- A goroutine is inside `writeJSON` or `WriteMessage` on connection `n`. -/
def Inside (n : ℕ) : System.Local Call Call.Ans Label Unit → Prop
  | .running (.call c _) => c.conn = some n
  | _ => False

instance (n : ℕ) (l : System.Local Call Call.Ans Label Unit) : Decidable (Inside n l) :=
  match l with
  | .running (.call c _) => inferInstanceAs (Decidable (c.conn = some n))
  | .running (.ret _) => .isFalse id
  | .stopped _ => .isFalse id

/-! ### What the goroutines do, in which order -/

/-- How far a goroutine is. -/
structure Phase where
  /-- `Run` has started no goroutines of this session or a later one. -/
  fresh : ℕ
  /-- The goroutine has been started. -/
  started : Bool
  /-- The writer has an event in hand. -/
  busy : Bool
  /-- A flush has `flushMu`. -/
  locked : Bool
  /-- A flush has rows in hand. -/
  rows : Bool

namespace Phase

def init : Phase := ⟨0, false, false, false, false⟩

/-- The goroutine after a call. -/
def next (q : Phase) : (c : Call) → c.Ans → Phase
  | .go n _, _ => { q with fresh := n + 1 }
  | .started _ _, _ => { q with started := true }
  | .select _, (.ctxDone : Selected) => q
  | .select _, (.event _ : Selected) => { q with busy := true }
  | .cancel _, _ => { q with busy := false }
  | .writeMessage _ _, _ => { q with busy := false }
  | .tryLock, (ok : Bool) => { q with locked := ok || q.locked }
  | .unlock, _ => { q with locked := false, rows := false }
  | .pendingRows, (some rows : Option (List Buffer.SMSRecord)) =>
    { q with rows := q.rows || !rows.isEmpty }
  | _, _ => q

/-- Nothing has changed but that the writer may have done with an event. -/
def Keeps (q q' : Phase) : Prop := q' = { q with busy := q'.busy }

theorem Keeps.refl (q : Phase) : q.Keeps q := rfl

theorem Keeps.trans {q q' q'' : Phase} (h : q.Keeps q') (h' : q'.Keeps q'') : q.Keeps q'' := by
  unfold Keeps at h h' ⊢
  rw [h', h]

end Phase

/-- A goroutine may write to connection `m`: `Run` before it has started the session's goroutines,
the session's writer with an event in hand, a flush of the session with the lock and rows. -/
def MayWrite (m : ℕ) (q : Phase) : Thread → Prop
  | .run => q.fresh ≤ m
  | .session n .writer => m = n ∧ q.started ∧ q.busy
  | .session n .flushOnConnect | .session n .periodicFlush =>
    m = n ∧ q.started ∧ q.locked ∧ q.rows
  | .session _ .reader | .session _ .purge => False

/-- The calls of each goroutine. -/
def writeProtocol (t : Thread) : Protocol Call Call.Ans Phase where
  allows q c :=
    match c with
    | .marshal m _ | .writeTime m | .setWriteDeadline m _ | .writeMessage m _ => MayWrite m q t
    | .go m _ => t = .run ∧ q.fresh ≤ m + 1
    | .started m role => t = .session m role
    | .select m => t = .session m .writer
    | .unlock | .pendingRows => q.locked
    | _ => True
  next q c a := q.next c a

/-- The calls that have to do with who writes. -/
def Call.tracked : Call → Bool
  | marshal _ _ | writeTime _ | setWriteDeadline _ _ | writeMessage _ _ | go _ _ => true
  | started _ _ | select _ | tryLock | unlock | pendingRows | cancel _ => true
  | _ => false

/-- The other calls are allowed and change nothing. -/
theorem writeProtocol_untracked {t : Thread} {q : Phase} (c : Call) (hc : c.tracked = false) :
    (writeProtocol t).allows q c ∧ ∀ a, (writeProtocol t).next q c a = q := by
  cases c with
  | marshal | writeTime | setWriteDeadline | writeMessage | go | started | select => cases hc
  | tryLock | unlock | pendingRows | cancel => cases hc
  | _ => exact ⟨trivial, fun _ => rfl⟩

/-- A program that makes other calls only. -/
abbrev Quiet {α : Type} (p : Io α) : Prop := p.Calls fun c => c.tracked = false

theorem quiet_ask {c : Call} (hc : c.tracked = false) : Quiet (ask c) := calls_ask hc

/-- A quiet program in front of another one. -/
theorem Quiet.bind_obeys {α β : Type} {p : Io α} {f : α → Io β} {t : Thread} {q : Phase}
    {Φ : β → Phase → Prop} (hp : Quiet p) (hf : ∀ a, (f a).Obeys (writeProtocol t) q Φ) :
    (p >>= f).Obeys (writeProtocol t) q Φ :=
  Prog.Calls.bind_obeys hp writeProtocol_untracked hf

theorem quiet_newEnvelope (type : MsgType) : Quiet (newEnvelope type) :=
  calls_newEnvelope type rfl rfl

theorem quiet_handleInbound (m : Inbound) : Quiet (handleInbound m) :=
  calls_handleInbound m (fun _ => rfl) rfl (fun _ => rfl) (fun _ => rfl) (fun _ => rfl) fun _ => rfl

section Obeys

variable {cfg : ManagerConfig} {t : Thread} {n : ℕ} {q : Phase}

theorem writeJSON_obeys {m : Outbound} (hq : MayWrite n q t) :
    (writeJSON cfg n m).Obeys (writeProtocol t) q fun _ q' => q.Keeps q' := by
  refine Prog.perform_bind_obeys hq fun (ok : Bool) => ?_
  cases ok with
  | false => exact .refl q
  | true =>
    refine Prog.perform_bind_obeys hq fun _ => Prog.perform_bind_obeys hq fun (ok : Bool) => ?_
    cases ok with
    | false => exact .refl q
    | true => exact ⟨hq, fun _ => rfl⟩

theorem sendHello_obeys (hq : MayWrite n q t) :
    (sendHello cfg n).Obeys (writeProtocol t) q fun _ q' => q.Keeps q' :=
  (quiet_newEnvelope _).bind_obeys fun _ => (quiet_ask rfl).bind_obeys fun _ => writeJSON_obeys hq

theorem sendHeartbeat_obeys (hq : MayWrite n q t) :
    (sendHeartbeat cfg n).Obeys (writeProtocol t) q fun _ q' => q.Keeps q' := by
  refine (quiet_ask rfl).bind_obeys fun (pending : Option ℕ) => ?_
  cases pending with
  | none => exact .refl q
  | some count =>
    exact (quiet_newEnvelope _).bind_obeys fun _ => (quiet_ask rfl).bind_obeys fun _ =>
      (quiet_ask rfl).bind_obeys fun _ => writeJSON_obeys hq

theorem sendPing_obeys (hq : MayWrite n q t) :
    (sendPing cfg n).Obeys (writeProtocol t) q fun _ q' => q.Keeps q' := by
  refine (quiet_ask rfl).bind_obeys fun _ => (quiet_ask rfl).bind_obeys fun (ok : Bool) => ?_
  cases ok with
  | false => exact .refl q
  | true => exact ⟨hq, fun _ => rfl⟩

/-- What holds where a block starts. -/
def Head (t : Thread) (l : Label) (q : Phase) : Prop :=
  match t, l with
  | .run, .run n => q.fresh ≤ n
  | .session n role, .start m r => m = n ∧ r = role
  | .session n role, .loop m r => m = n ∧ r = role ∧ q.started
  | _, _ => False

/-- What holds where a block ends. -/
def End (t : Thread) (res : Label ⊕ Unit) (q : Phase) : Prop :=
  res.elim (fun l => Head t l q) fun _ => True

theorem writer_obeys (hq : q.started) : (writer cfg n).Obeys (writeProtocol (.session n .writer)) q
    (End (.session n .writer)) := by
  refine Prog.perform_bind_obeys rfl fun (selected : Selected) => ?_
  cases selected with
  | ctxDone => exact (quiet_ask rfl).bind_obeys fun _ => trivial
  | event e =>
    have hevent : (writeEvent cfg n e).Obeys (writeProtocol (.session n .writer))
        { q with busy := true } fun _ q' => Phase.Keeps { q with busy := true } q' := by
      cases e with
      | outbox m => exact writeJSON_obeys ⟨rfl, hq, rfl⟩
      | ping => exact sendPing_obeys ⟨rfl, hq, rfl⟩
      | heartbeat => exact sendHeartbeat_obeys ⟨rfl, hq, rfl⟩
    refine hevent.bind fun ok q' hq' => ?_
    cases ok with
    | true =>
      rw [hq']
      exact ⟨rfl, rfl, hq⟩
    | false =>
      exact Prog.perform_bind_obeys trivial fun _ => (quiet_ask rfl).bind_obeys fun _ => trivial

theorem reader_obeys (hq : q.started) : (reader n).Obeys (writeProtocol (.session n .reader)) q
    (End (.session n .reader)) := by
  refine (quiet_ask rfl).bind_obeys fun (done : Bool) => ?_
  cases done with
  | true => exact (quiet_ask rfl).bind_obeys fun _ => trivial
  | false =>
    refine (quiet_ask rfl).bind_obeys fun (msg : Option Inbound) => ?_
    cases msg with
    | some m => exact (quiet_handleInbound m).bind_obeys fun _ => ⟨rfl, rfl, hq⟩
    | none =>
      refine (quiet_ask rfl).bind_obeys fun (done : Bool) => ?_
      cases done with
      | true => exact (quiet_ask rfl).bind_obeys fun _ => trivial
      | false =>
        exact Prog.perform_bind_obeys trivial fun _ => (quiet_ask rfl).bind_obeys fun _ => trivial

/-- A goroutine that flushes. -/
def Role.flushes : Role → Prop
  | flushOnConnect | periodicFlush => True
  | _ => False

theorem mayWrite_of_flushes {role : Role} (hrole : role.flushes) (hstarted : q.started)
    (hlocked : q.locked) (hrows : q.rows) : MayWrite n q (.session n role) := by
  cases role with
  | flushOnConnect | periodicFlush => exact ⟨rfl, hstarted, hlocked, hrows⟩
  | _ => exact hrole.elim

theorem flushRows_obeys {role : Role} (hrole : role.flushes) (hstarted : q.started)
    (hlocked : q.locked) (rows : List Buffer.SMSRecord) (hrows : rows ≠ [] → q.rows) :
    (flushRows cfg n rows).Obeys (writeProtocol (.session n role)) q fun _ q' => q.Keeps q' := by
  induction rows generalizing q with
  | nil => exact .refl q
  | cons row rows ih =>
    have hrow := hrows (List.cons_ne_nil row rows)
    -- the rest of the rows, once the row's write has changed nothing that matters
    have hrest : ∀ q', q.Keeps q' → (flushRows cfg n rows).Obeys (writeProtocol (.session n role))
        q' fun _ q'' => q.Keeps q'' := by
      intro q' hq'
      have hkeep : q'.started = q.started ∧ q'.locked = q.locked ∧ q'.rows = q.rows := by
        rw [hq']
        exact ⟨rfl, rfl, rfl⟩
      refine (ih (hkeep.1.trans hstarted) (hkeep.2.1.trans hlocked)
        fun _ => hkeep.2.2.trans hrow).mono fun _ q'' hq'' => hq'.trans hq''
    refine (quiet_ask rfl).bind_obeys fun (done : Bool) => ?_
    cases done with
    | true => exact .refl q
    | false =>
      refine (quiet_newEnvelope _).bind_obeys fun _ => ?_
      refine (writeJSON_obeys (mayWrite_of_flushes hrole hstarted hlocked hrow)).bind
        fun ok q' hq' => ?_
      cases ok with
      | false => exact hq'
      | true =>
        refine (quiet_ask rfl).bind_obeys fun (registered : Option ℕ) => ?_
        cases registered with
        | none => exact hrest q' hq'
        | some ch =>
          refine (quiet_ask rfl).bind_obeys fun _ => ?_
          refine (quiet_ask rfl).bind_obeys fun (waited : Waited) => ?_
          cases waited with
          | acked => exact hrest q' hq'
          | timeout => exact (quiet_ask rfl).bind_obeys fun _ => hrest q' hq'
          | ctxDone => exact hq'

theorem flushBuffer_obeys {role : Role} (hrole : role.flushes) (hq : q.started) :
    (flushBuffer cfg n).Obeys (writeProtocol (.session n role)) q fun _ q' => q'.started := by
  refine Prog.perform_bind_obeys trivial fun (ok : Bool) => ?_
  cases ok with
  | false => exact hq
  | true =>
    refine Prog.perform_bind_obeys rfl fun (rows : Option (List Buffer.SMSRecord)) => ?_
    have hunlock : ∀ q' : Phase, q'.started → q'.locked →
        (ask .unlock).Obeys (writeProtocol (.session n role)) q' fun _ q'' => q''.started :=
      fun q' hstarted hlocked => ⟨hlocked, fun _ => hstarted⟩
    cases rows with
    | none => exact hunlock _ hq rfl
    | some rows =>
      have hrows : rows ≠ [] → (q.rows || !rows.isEmpty) = true := by
        intro hne
        rw [List.isEmpty_eq_false_iff.mpr hne, Bool.not_false, Bool.or_true]
      refine (flushRows_obeys (q := { q with locked := true, rows := q.rows || !rows.isEmpty })
        hrole hq rfl rows hrows).bind fun _ q' hq' => ?_
      apply hunlock <;> rw [hq']
      exact hq

theorem runSession_obeys (hq : q.fresh ≤ n) :
    (runSession cfg n).Obeys (writeProtocol .run) q fun _ q' => q'.fresh ≤ n + 1 := by
  have hmay : MayWrite n q .run := hq
  refine (quiet_ask rfl).bind_obeys fun _ => ?_
  refine (sendHello_obeys hmay).bind fun ok q' hq' => ?_
  have hfresh : q'.fresh ≤ n := by
    rw [hq']
    exact hq
  cases ok with
  | false => exact ⟨trivial, fun _ => Nat.le_succ_of_le hfresh⟩
  | true =>
    -- the first goroutine moves `fresh` on, the others find it there
    refine Prog.perform_bind_obeys ⟨rfl, Nat.le_succ_of_le hfresh⟩ fun _ => ?_
    refine Prog.perform_bind_obeys ⟨rfl, le_rfl⟩ fun _ => ?_
    refine Prog.perform_bind_obeys ⟨rfl, le_rfl⟩ fun _ => ?_
    refine Prog.perform_bind_obeys ⟨rfl, le_rfl⟩ fun _ => ?_
    refine Prog.perform_bind_obeys ⟨rfl, le_rfl⟩ fun _ => ?_
    refine (quiet_ask rfl).bind_obeys fun _ => (quiet_ask rfl).bind_obeys fun _ => ?_
    exact Prog.perform_bind_obeys trivial fun _ => ⟨trivial, fun _ => le_rfl⟩

theorem run_obeys (hq : q.fresh ≤ n) : (run cfg n).Obeys (writeProtocol .run) q (End .run) := by
  refine (quiet_ask rfl).bind_obeys fun (done : Bool) => ?_
  cases done with
  | true => trivial
  | false =>
    refine (quiet_ask rfl).bind_obeys fun (ok : Bool) => ?_
    cases ok with
    | true =>
      exact (runSession_obeys hq).bind fun _ q' hq' => (quiet_ask rfl).bind_obeys fun _ => hq'
    | false => exact (quiet_ask rfl).bind_obeys fun _ => hq

theorem block_obeys {l : Label} (hhead : Head t l q) :
    (block cfg l).Obeys (writeProtocol t) q (End t) := by
  cases t with
  | run =>
    cases l with
    | run n => exact run_obeys hhead
    | _ => exact hhead.elim
  | session n role =>
    cases l with
    | run m => exact hhead.elim
    | start m r =>
      obtain ⟨rfl, rfl⟩ := hhead
      exact Prog.perform_bind_obeys rfl fun _ => ⟨rfl, rfl, rfl⟩
    | loop m r =>
      obtain ⟨rfl, rfl, hq⟩ := hhead
      cases r with
      | writer => exact writer_obeys hq
      | reader => exact reader_obeys hq
      | flushOnConnect =>
        have hrole : Role.flushes .flushOnConnect := trivial
        exact (flushBuffer_obeys hrole hq).bind fun _ _ _ => trivial
      | periodicFlush =>
        have hrole : Role.flushes .periodicFlush := trivial
        refine (quiet_ask rfl).bind_obeys fun (tick : Bool) => ?_
        cases tick with
        | true => exact (flushBuffer_obeys hrole hq).bind fun _ _ hq' => ⟨rfl, rfl, hq'⟩
        | false => trivial
      | purge =>
        refine (quiet_ask rfl).bind_obeys fun (tick : Bool) => ?_
        cases tick with
        | true => exact (quiet_ask rfl).bind_obeys fun _ => ⟨rfl, rfl, hq⟩
        | false => trivial

end Obeys

/-! ### What holds along the way -/

section Invariant

/-- What is known of a goroutine. -/
structure PhaseOk (s : World) (t : Thread) (p : Phase) : Prop where
  mutex : p.locked → s.flushMu = true
  rows : p.rows → p.locked = true
  fresh : t = .run → ∀ n role, p.fresh ≤ n → s.spawned n role = false
  started : ∀ n role, t = .session n role → p.started → s.spawned n role = true
  busy : ∀ n, t = .session n .writer → p.busy → s.busy n = true
  held : ∀ n role, t = .session n role → p.rows → s.rowsHeld n = true

/-- The invariant: what is known of each goroutine, and that one of them has `flushMu` at most. -/
structure WriteInv (s : World) (q : Thread → Phase) : Prop where
  each : ∀ t, PhaseOk s t (q t)
  unique : ∀ t t', (q t).locked → (q t').locked → t = t'

/-- Two worlds do not differ in what the invariant is about. -/
structure SameWriters (s s' : World) : Prop where
  flushMu : s'.flushMu = s.flushMu
  spawned : s'.spawned = s.spawned
  busy : s'.busy = s.busy
  rowsHeld : s'.rowsHeld = s.rowsHeld

variable {s s' : World} {t : Thread} {q : Thread → Phase} {ms : ℤ}

theorem PhaseOk.of_same {p : Phase} (h : PhaseOk s t p) (hs : SameWriters s s') :
    PhaseOk s' t p := by
  obtain ⟨hmu, hspawned, hbusy, hheld⟩ := hs
  constructor
  · rw [hmu]; exact h.mutex
  · exact h.rows
  · rw [hspawned]; exact h.fresh
  · rw [hspawned]; exact h.started
  · rw [hbusy]; exact h.busy
  · rw [hheld]; exact h.held

theorem WriteInv.of_same (h : WriteInv s q) (hs : SameWriters s s') : WriteInv s' q :=
  ⟨fun t => (h.each t).of_same hs, h.unique⟩

/-- A step of thread `t`. -/
theorem WriteInv.step (h : WriteInv s q) {p : Phase} (hself : PhaseOk s' t p)
    (hothers : ∀ u, u ≠ t → PhaseOk s' u (q u))
    (hlocked : p.locked → ∀ u, u ≠ t → (q u).locked = false) :
    WriteInv s' (Function.update q t p) where
  each u := by
    by_cases hu : u = t
    · subst hu
      rwa [Function.update_self]
    · rw [Function.update_of_ne hu]
      exact hothers u hu
  unique u u' := by
    by_cases hu : u = t <;> by_cases hu' : u' = t
    · exact fun _ _ => hu.trans hu'.symm
    · subst hu
      rw [Function.update_self, Function.update_of_ne hu']
      intro hp hq
      rw [hlocked hp u' hu'] at hq
      cases hq
    · subst hu'
      rw [Function.update_self, Function.update_of_ne hu]
      intro hq hp
      rw [hlocked hp u hu] at hq
      cases hq
    · rw [Function.update_of_ne hu, Function.update_of_ne hu']
      exact h.unique u u'

/-- The thread that has `flushMu` is the only one. -/
theorem WriteInv.others_unlocked (h : WriteInv s q) (ht : (q t).locked) :
    ∀ u, u ≠ t → (q u).locked = false := by
  intro u hu
  exact Bool.eq_false_iff.mpr fun hlocked => hu (h.unique u t hlocked ht)

/-! ### Every call keeps the invariant -/

theorem sameWriters_refl (s : World) : SameWriters s s := ⟨rfl, rfl, rfl, rfl⟩

theorem sameWriters_of_ite {c : Prop} {_ : Decidable c}
    (h : (if c then some s else none) = some s') : SameWriters s s' := by
  obtain ⟨-, h⟩ := Option.ite_none_right_eq_some.mp h
  cases h
  exact sameWriters_refl s

/-- The calls that are not tracked leave this part of the world alone. -/
theorem sameWriters_of_exec {c : Call} {a : c.Ans} (hc : c.tracked = false)
    (hexec : s.exec t ms c a = some s') : SameWriters s s' := by
  have hleaves : c.Leaves fun s => (s.flushMu, s.spawned, s.busy, s.rowsHeld) := by
    cases c with
    | go | writeMessage | select | tryLock | unlock | pendingRows | cancel => cases hc
    | _ => simp [Call.Leaves]
  have hsame := view_of_exec hleaves hexec
  simp only [Prod.mk.injEq] at hsame
  exact ⟨hsame.1, hsame.2.1, hsame.2.2.1, hsame.2.2.2⟩

/-- A call that leaves the goroutine's phase alone, too. -/
theorem WriteInv.stay (h : WriteInv s q) (hs : SameWriters s s') :
    WriteInv s' (Function.update q t (q t)) := by
  rw [Function.update_eq_self]
  exact h.of_same hs

/-- The writer has done with an event, or another goroutine cancels the session. -/
theorem WriteInv.settle {w : World} (h : WriteInv s q) (hs : SameWriters s w) :
    WriteInv (World.settle t w) (Function.update q t { q t with busy := false }) := by
  have h := h.of_same hs
  have hsame : (World.settle t w).flushMu = w.flushMu ∧
      (World.settle t w).spawned = w.spawned ∧ (World.settle t w).rowsHeld = w.rowsHeld := by
    rcases t with _ | ⟨n, _ | _⟩ <;> exact ⟨rfl, rfl, rfl⟩
  obtain ⟨hmu, hspawned, hheld⟩ := hsame
  refine h.step ⟨?_, (h.each t).rows, ?_, ?_, nofun, ?_⟩ (fun u hu => ?_)
    fun hlocked => h.others_unlocked hlocked
  · rw [hmu]; exact (h.each t).mutex
  · rw [hspawned]; exact (h.each t).fresh
  · rw [hspawned]; exact (h.each t).started
  · rw [hheld]; exact (h.each t).held
  · refine ⟨?_, (h.each u).rows, ?_, ?_, fun m hm hbusy => ?_, ?_⟩
    · rw [hmu]; exact (h.each u).mutex
    · rw [hspawned]; exact (h.each u).fresh
    · rw [hspawned]; exact (h.each u).started
    · -- it is another session's writer
      have hm' := (h.each u).busy m hm hbusy
      subst hm
      rcases t with _ | ⟨n, _ | _⟩ <;> try exact hm'
      have hne : m ≠ n := by
        rintro rfl
        exact hu rfl
      exact (Function.update_of_ne hne _ _).trans hm'
    · rw [hheld]; exact (h.each u).held

/-- The writer takes an event. -/
theorem WriteInv.take {w : World} {n : ℕ} (h : WriteInv s q) (hs : SameWriters s w)
    (ht : t = .session n .writer) :
    WriteInv (World.take t w) (Function.update q t { q t with busy := true }) := by
  subst ht
  have h := h.of_same hs
  have hbusy : ∀ m, w.busy m = true → Function.update w.busy n true m = true := by
    intro m hm
    by_cases hmn : m = n
    · rw [hmn, Function.update_self]
    · rwa [Function.update_of_ne hmn]
  have hself := h.each (.session n .writer)
  refine h.step ⟨hself.mutex, hself.rows, hself.fresh, hself.started, fun m hm _ => ?_, hself.held⟩
    (fun u hu => ?_) fun hlocked => h.others_unlocked hlocked
  · cases hm
    exact Function.update_self ..
  · exact ⟨(h.each u).mutex, (h.each u).rows, (h.each u).fresh, (h.each u).started,
      fun m hm hb => hbusy m ((h.each u).busy m hm hb), (h.each u).held⟩

theorem writeInv_select {n : ℕ} {a : Selected} (h : WriteInv s q)
    (hallow : (writeProtocol t).allows (q t) (.select n))
    (hexec : s.exec t ms (.select n) a = some s') :
    WriteInv s' (Function.update q t ((q t).next (.select n) a)) := by
  cases a with
  | ctxDone => exact h.stay (sameWriters_of_ite hexec)
  | event e =>
    cases e with
    | outbox m =>
      cases hout : s.outbox with
      | nil =>
        simp only [World.exec, hout] at hexec
        cases hexec
      | cons m' rest =>
        simp only [World.exec, hout] at hexec
        obtain ⟨-, hs⟩ := Option.ite_none_right_eq_some.mp hexec
        cases hs
        exact h.take (w := { s with outbox := rest }) ⟨rfl, rfl, rfl, rfl⟩ hallow
    | ping | heartbeat =>
      cases hexec
      exact h.take (sameWriters_refl s) hallow

/-- `Run` starts a goroutine. -/
theorem writeInv_go {n : ℕ} {role : Role} (h : WriteInv s q)
    (hallow : (writeProtocol t).allows (q t) (.go n role))
    (hexec : s.exec t ms (.go n role) () = some s') :
    WriteInv s' (Function.update q t { q t with fresh := n + 1 }) := by
  obtain ⟨rfl, hfresh⟩ := hallow
  cases hexec
  have hold : ∀ m r, s.spawned m r = true →
      Function.update s.spawned n (Function.update (s.spawned n) role true) m r = true := by
    intro m r hm
    by_cases hmn : m = n
    · subst hmn
      rw [Function.update_self]
      by_cases hr : r = role
      · rw [hr, Function.update_self]
      · rwa [Function.update_of_ne hr]
    · rwa [Function.update_of_ne hmn]
  have hself := h.each .run
  refine h.step ⟨hself.mutex, hself.rows, fun _ m r hm => ?_, nofun, nofun, nofun⟩ (fun u hu => ?_)
    fun hlocked => h.others_unlocked hlocked
  · have hlt : n < m := hm
    dsimp only
    rw [Function.update_of_ne hlt.ne']
    exact hself.fresh rfl m r (hfresh.trans hlt)
  · exact ⟨(h.each u).mutex, (h.each u).rows, fun hrun => absurd hrun hu,
      fun m r hm hb => hold m r ((h.each u).started m r hm hb), (h.each u).busy, (h.each u).held⟩

/-- A goroutine that `Run` has started starts. -/
theorem writeInv_started {n : ℕ} {role : Role} (h : WriteInv s q)
    (hallow : (writeProtocol t).allows (q t) (.started n role))
    (hexec : s.exec t ms (.started n role) () = some s') :
    WriteInv s' (Function.update q t { q t with started := true }) := by
  obtain ⟨hspawned, hs⟩ := Option.ite_none_right_eq_some.mp hexec
  cases hs
  obtain rfl : t = .session n role := hallow
  have hself := h.each (.session n role)
  refine h.step ⟨hself.mutex, hself.rows, nofun, fun m r hm _ => ?_, hself.busy, hself.held⟩
    (fun u _ => h.each u) fun hlocked => h.others_unlocked hlocked
  cases hm
  exact hspawned

theorem writeInv_tryLock {ok : Bool} (h : WriteInv s q)
    (hexec : s.exec t ms .tryLock ok = some s') :
    WriteInv s' (Function.update q t ((q t).next .tryLock ok)) := by
  obtain ⟨hok, hs⟩ := Option.ite_none_right_eq_some.mp hexec
  cases hs
  have hself := h.each t
  cases ok with
  | false =>
    -- `flushMu` was taken and stays so
    have hmu : s.flushMu = true := by
      cases hmu : s.flushMu with
      | true => rfl
      | false =>
        rw [hmu] at hok
        cases hok
    exact h.stay ⟨hmu.symm, rfl, rfl, rfl⟩
  | true =>
    have hfree : ∀ u, (q u).locked = false := by
      intro u
      refine Bool.eq_false_iff.mpr fun hlocked => ?_
      rw [(h.each u).mutex hlocked] at hok
      cases hok
    refine h.step ⟨fun _ => rfl, fun _ => rfl, hself.fresh, hself.started, hself.busy, hself.held⟩
      (fun u _ => ?_) fun _ u _ => hfree u
    exact ⟨fun _ => rfl, (h.each u).rows, (h.each u).fresh, (h.each u).started, (h.each u).busy,
      (h.each u).held⟩

/-- A flush returns. -/
theorem writeInv_unlock (h : WriteInv s q) (hallow : (writeProtocol t).allows (q t) .unlock)
    (hexec : s.exec t ms .unlock () = some s') :
    WriteInv s' (Function.update q t { q t with locked := false, rows := false }) := by
  cases hexec
  have hself := h.each t
  have hother := h.others_unlocked hallow
  have hsame : (World.hold t false { s with flushMu := false }).spawned = s.spawned ∧
      (World.hold t false { s with flushMu := false }).busy = s.busy := by
    cases t <;> exact ⟨rfl, rfl⟩
  obtain ⟨hspawned, hbusy⟩ := hsame
  refine h.step ⟨nofun, nofun, ?_, ?_, ?_, nofun⟩ (fun u hu => ?_) nofun
  · rw [hspawned]; exact hself.fresh
  · rw [hspawned]; exact hself.started
  · rw [hbusy]; exact hself.busy
  · -- no other flush has the lock, so none has rows
    have hunlocked : ¬ (q u).locked = true := Bool.eq_false_iff.mp (hother u hu)
    refine ⟨fun hl => absurd hl hunlocked, (h.each u).rows, ?_, ?_, ?_,
      fun _ _ _ hrows => absurd ((h.each u).rows hrows) hunlocked⟩
    · rw [hspawned]; exact (h.each u).fresh
    · rw [hspawned]; exact (h.each u).started
    · rw [hbusy]; exact (h.each u).busy

/-- A flush reads the rows that it will write. -/
theorem writeInv_pendingRows {a : Option (List Buffer.SMSRecord)} (h : WriteInv s q)
    (hallow : (writeProtocol t).allows (q t) .pendingRows)
    (hexec : s.exec t ms .pendingRows a = some s') :
    WriteInv s' (Function.update q t ((q t).next .pendingRows a)) := by
  cases a with
  | none =>
    cases hexec
    exact h.stay (sameWriters_refl s)
  | some rows =>
    obtain ⟨-, hs⟩ := Option.ite_none_right_eq_some.mp hexec
    cases hs
    have hself := h.each t
    have hlocked : (q t).locked = true := hallow
    cases rows with
    | nil =>
      have hnext : (q t).next .pendingRows (some []) = q t := by
        simp [Phase.next]
      rw [hnext]
      exact h.stay (sameWriters_refl s)
    | cons row rows =>
      rw [if_neg (List.cons_ne_nil row rows)]
      cases t with
      | run =>
        exact h.step ⟨hself.mutex, fun _ => hlocked, hself.fresh, nofun, nofun, nofun⟩
          (fun u _ => h.each u) fun _ => h.others_unlocked hlocked
      | session n role =>
        have hheld : ∀ m, s.rowsHeld m = true → Function.update s.rowsHeld n true m = true := by
          intro m hm
          by_cases hmn : m = n
          · rw [hmn, Function.update_self]
          · rwa [Function.update_of_ne hmn]
        refine h.step ⟨hself.mutex, fun _ => hlocked, nofun, hself.started, hself.busy,
          fun m r hm _ => ?_⟩ (fun u _ => ?_) fun _ => h.others_unlocked hlocked
        · cases hm
          exact Function.update_self ..
        · exact ⟨(h.each u).mutex, (h.each u).rows, (h.each u).fresh, (h.each u).started,
            (h.each u).busy, fun m r hm hrows => hheld m ((h.each u).held m r hm hrows)⟩

/-- Every call keeps the invariant. -/
theorem writeInv_call {c : Call} {a : c.Ans} (h : WriteInv s q)
    (hallow : (writeProtocol t).allows (q t) c) (hexec : s.exec t ms c a = some s') :
    WriteInv s' (Function.update q t ((writeProtocol t).next (q t) c a)) := by
  by_cases hc : c.tracked = false
  · rw [(writeProtocol_untracked c hc).2 a]
    exact h.stay (sameWriters_of_exec hc hexec)
  · cases c with
    | marshal =>
      cases hexec
      exact h.stay (sameWriters_refl s)
    | writeTime => exact h.stay (sameWriters_of_ite hexec)
    | setWriteDeadline n deadline =>
      refine h.stay ?_
      cases a <;> cases hexec <;> exact ⟨rfl, rfl, rfl, rfl⟩
    | writeMessage n f =>
      cases hexec
      refine h.settle ?_
      cases a <;> exact ⟨rfl, rfl, rfl, rfl⟩
    | cancel n =>
      cases hexec
      exact h.settle (w := { s with cancelled := _ }) ⟨rfl, rfl, rfl, rfl⟩
    | go n role => exact writeInv_go h hallow hexec
    | started n role => exact writeInv_started h hallow hexec
    | select n => exact writeInv_select h hallow hexec
    | tryLock => exact writeInv_tryLock h hexec
    | unlock => exact writeInv_unlock h hallow hexec
    | pendingRows => exact writeInv_pendingRows h hallow hexec
    | _ => exact absurd rfl hc

theorem sameWriters_outer {v : Outer} (hstep : v.step s = some s') : SameWriters s s' := by
  have hsame := view_of_outer (f := fun s => (s.flushMu, s.spawned, s.busy, s.rowsHeld))
    (by intros; rfl) hstep
  simp only [Prod.mk.injEq] at hsame
  exact ⟨hsame.1, hsame.2.1, hsame.2.2.1, hsame.2.2.2⟩

end Invariant

/-! ### Whole runs -/

/-- The proof outline. -/
def writeOutline (cfg : ManagerConfig) : System.Outline (managerSystem cfg) writeProtocol where
  head := Head
  final _ _ _ := True
  inv := WriteInv
  block_obeys t l q hhead := (block_obeys hhead).mono fun res q' hend => by
    cases res <;> exact hend
  call_inv t ms s q c a s' hinv hallow hexec := writeInv_call hinv hallow hexec
  env_inv v s q s' hinv hstep := hinv.of_same (sameWriters_outer hstep)
  crash_inv _ _ _ _ _ _ hcrash := by cases hcrash

/-- The condition: the writer of a session takes no event while a flush of the session has rows in
hand, and a flush finds no rows while the writer has an event in hand. -/
def takesTurns (t : Thread) (s : World) (c : Call) (a : c.Ans) : Bool :=
  match t, c, a with
  | .session n _, .select _, (.event _ : Selected) => !s.rowsHeld n
  | .session n _, .pendingRows, (some (_ :: _) : Option (List Buffer.SMSRecord)) => !s.busy n
  | _, _, _ => true

/-- No session has both an event and rows in hand. -/
def Apart (s : World) : Prop := ∀ n, ¬ (s.busy n = true ∧ s.rowsHeld n = true)

section Apart

variable {s s' : World} {t : Thread} {ms : ℤ}

theorem Apart.mono (h : Apart s) (hbusy : ∀ n, s'.busy n = true → s.busy n = true)
    (hheld : ∀ n, s'.rowsHeld n = true → s.rowsHeld n = true) : Apart s' :=
  fun n hn => h n ⟨hbusy n hn.1, hheld n hn.2⟩

theorem Apart.of_same (h : Apart s) (hs : SameWriters s s') : Apart s' :=
  h.mono (fun n hn => by rwa [hs.busy] at hn) fun n hn => by rwa [hs.rowsHeld] at hn

theorem Apart.settle {w : World} (h : Apart s) (hs : SameWriters s w) :
    Apart (World.settle t w) := by
  have h := h.of_same hs
  rcases t with _ | ⟨n, _ | _⟩ <;> try exact h
  refine h.mono (fun m hm => ?_) fun _ hm => hm
  by_cases hmn : m = n
  · subst hmn
    have hfalse : Function.update w.busy m false m = true := hm
    rw [Function.update_self] at hfalse
    cases hfalse
  · exact (Function.update_of_ne hmn _ _).symm.trans hm

theorem Apart.take {w : World} (h : Apart s) (hs : SameWriters s w)
    (hfree : ∀ n role, t = .session n role → s.rowsHeld n = false) : Apart (World.take t w) := by
  have h := h.of_same hs
  rcases t with _ | ⟨n, _ | _⟩ <;> try exact h
  rintro m ⟨hbusy, hheld⟩
  by_cases hmn : m = n
  · subst hmn
    have hheld' : w.rowsHeld m = true := hheld
    rw [hs.rowsHeld, hfree m .writer rfl] at hheld'
    cases hheld'
  · exact h m ⟨(Function.update_of_ne hmn _ _).symm.trans hbusy, hheld⟩

theorem Apart.hold {w : World} {held : Bool} (h : Apart s) (hbusy : w.busy = s.busy)
    (hheld : w.rowsHeld = s.rowsHeld)
    (hfree : held = true → ∀ n role, t = .session n role → s.busy n = false) :
    Apart (World.hold t held w) := by
  have h : Apart w := h.mono (fun n hn => by rwa [hbusy] at hn) fun n hn => by rwa [hheld] at hn
  cases t with
  | run => exact h
  | session n role =>
    rintro m ⟨hb, hr⟩
    by_cases hmn : m = n
    · subst hmn
      have hb' : w.busy m = true := hb
      have hr' : Function.update w.rowsHeld m held m = true := hr
      rw [Function.update_self] at hr'
      rw [hbusy, hfree hr' m role rfl] at hb'
      cases hb'
    · exact h m ⟨hb, (Function.update_of_ne hmn _ _).symm.trans hr⟩

/-- Calls that take turns keep events and rows apart. -/
theorem apart_call {c : Call} {a : c.Ans} (h : Apart s) (hok : takesTurns t s c a)
    (hexec : s.exec t ms c a = some s') : Apart s' := by
  by_cases hc : c.tracked = false
  · exact h.of_same (sameWriters_of_exec hc hexec)
  · cases c with
    | marshal =>
      cases hexec
      exact h
    | writeTime => exact h.of_same (sameWriters_of_ite hexec)
    | setWriteDeadline n deadline =>
      cases a <;> cases hexec <;> exact h
    | writeMessage n f =>
      cases hexec
      refine h.settle ?_
      cases a <;> exact ⟨rfl, rfl, rfl, rfl⟩
    | cancel n =>
      cases hexec
      exact h.settle (w := { s with cancelled := _ }) ⟨rfl, rfl, rfl, rfl⟩
    | go n role =>
      cases hexec
      exact h
    | started n role => exact h.of_same (sameWriters_of_ite hexec)
    | select n =>
      cases a with
      | ctxDone => exact h.of_same (sameWriters_of_ite hexec)
      | event e =>
        have hfree : ∀ m role, t = .session m role → s.rowsHeld m = false := by
          rintro m role rfl
          have hfree : (!s.rowsHeld m) = true := hok
          rwa [Bool.not_eq_true'] at hfree
        cases e with
        | outbox m =>
          cases hout : s.outbox with
          | nil =>
            simp only [World.exec, hout] at hexec
            cases hexec
          | cons m' rest =>
            simp only [World.exec, hout] at hexec
            obtain ⟨-, hs⟩ := Option.ite_none_right_eq_some.mp hexec
            cases hs
            exact h.take (w := { s with outbox := rest }) ⟨rfl, rfl, rfl, rfl⟩ hfree
        | ping | heartbeat =>
          cases hexec
          exact h.take (sameWriters_refl s) hfree
    | tryLock =>
      obtain ⟨-, hs⟩ := Option.ite_none_right_eq_some.mp hexec
      cases hs
      exact h
    | unlock =>
      cases hexec
      exact h.hold (w := { s with flushMu := false }) rfl rfl (by simp)
    | pendingRows =>
      cases a with
      | none =>
        cases hexec
        exact h
      | some rows =>
        obtain ⟨-, hs⟩ := Option.ite_none_right_eq_some.mp hexec
        cases hs
        cases rows with
        | nil => exact h
        | cons row rows =>
          rw [if_neg (List.cons_ne_nil row rows)]
          refine h.hold rfl rfl fun _ m role hm => ?_
          subst hm
          have hfree : (!s.busy m) = true := hok
          rwa [Bool.not_eq_true'] at hfree
    | _ => exact absurd rfl hc

end Apart

/-- The proof outline of the runs that take turns. -/
def turnsOutline (cfg : ManagerConfig) :
    System.Outline ((managerSystem cfg).restrict takesTurns) writeProtocol :=
  (writeOutline cfg).restrict takesTurns Apart
    (fun _ _ _ _ _ _ h hok hexec => apart_call h hok hexec)
    (fun _ _ _ h hstep => h.of_same (sameWriters_outer hstep))
    fun _ _ _ _ _ hcrash => by cases hcrash

/-- A goroutine of the session that writes to its connection is its writer with an event or a flush
with rows. -/
theorem mayWrite_of_inside (cfg : ManagerConfig) {n : ℕ} {t : Thread} {q : Phase}
    {l : System.Local Call Call.Ans Label Unit} (h : (writeOutline cfg).Follows t l q)
    (hinside : Inside n l) : MayWrite n q t := by
  match l, h, hinside with
  | .running (.call c k), h, hinside =>
    have hallow : (writeProtocol t).allows q c := h.1
    cases c with
    | marshal m x | writeTime m | setWriteDeadline m x | writeMessage m x =>
      cases hinside
      exact hallow
    | _ => cases hinside
  | .running (.ret _), _, hinside => exact hinside.elim
  | .stopped _, _, hinside => exact hinside.elim

/-- A flush of session `n`. -/
def IsFlush (n : ℕ) (t : Thread) : Prop :=
  t = .session n .flushOnConnect ∨ t = .session n .periodicFlush

/-- Who may write to connection `n`. -/
theorem MayWrite.cases {n : ℕ} {p : Phase} {t : Thread} (h : MayWrite n p t) :
    (t = .run ∧ p.fresh ≤ n) ∨ (t = .session n .writer ∧ p.started ∧ p.busy) ∨
      (IsFlush n t ∧ p.started ∧ p.locked ∧ p.rows) := by
  cases t with
  | run => exact .inl ⟨rfl, h⟩
  | session m role =>
    cases role with
    | writer =>
      obtain ⟨rfl, hstarted, hbusy⟩ := h
      exact .inr (.inl ⟨rfl, hstarted, hbusy⟩)
    | flushOnConnect =>
      obtain ⟨rfl, hflush⟩ := h
      exact .inr (.inr ⟨.inl rfl, hflush⟩)
    | periodicFlush =>
      obtain ⟨rfl, hflush⟩ := h
      exact .inr (.inr ⟨.inr rfl, hflush⟩)
    | reader | purge => exact h.elim

/-- The writer with an event, and a flush with rows, of one session. -/
def Conflict (n : ℕ) (q : Thread → Phase) (t t' : Thread) : Prop :=
  (t = .session n .writer ∧ (q t).busy) ∧ IsFlush n t' ∧ (q t').rows

section

variable {s : World} {q : Thread → Phase} {n : ℕ} {t t' : Thread}

/-- While `Run` may write, no goroutine of the session has been started. -/
theorem WriteInv.not_started (h : WriteInv s q) (hrun : (q .run).fresh ≤ n) {role : Role}
    (hstarted : (q (.session n role)).started) : False := by
  have hspawned := (h.each (.session n role)).started n role rfl hstarted
  rw [(h.each .run).fresh rfl n role hrun] at hspawned
  cases hspawned

/-- The session's own goroutine among those that may write. -/
theorem MayWrite.exists_role (h : MayWrite n (q t) t) (ht : t ≠ .run) :
    ∃ role, t = .session n role ∧ (q (.session n role)).started := by
  rcases h.cases with ⟨rfl, -⟩ | ⟨rfl, hstarted, -⟩ | ⟨rfl | rfl, hstarted, -⟩
  · exact absurd rfl ht
  · exact ⟨_, rfl, hstarted⟩
  · exact ⟨_, rfl, hstarted⟩
  · exact ⟨_, rfl, hstarted⟩

/-- Two goroutines that may write to one connection are its writer and one of its flushes. -/
theorem WriteInv.eq_or_conflict (h : WriteInv s q) (ht : MayWrite n (q t) t)
    (ht' : MayWrite n (q t') t') : t = t' ∨ Conflict n q t t' ∨ Conflict n q t' t := by
  by_cases hrun : t = .run
  · subst hrun
    by_cases hrun' : t' = .run
    · exact .inl hrun'.symm
    · obtain ⟨role, rfl, hstarted⟩ := ht'.exists_role hrun'
      exact (h.not_started ht hstarted).elim
  · by_cases hrun' : t' = .run
    · subst hrun'
      obtain ⟨role, rfl, hstarted⟩ := ht.exists_role hrun
      exact (h.not_started ht' hstarted).elim
    · rcases ht.cases with ⟨hr, -⟩ | ⟨hw, -, hbusy⟩ | ⟨hf, -, hlocked, hrows⟩
      · exact absurd hr hrun
      · rcases ht'.cases with ⟨hr', -⟩ | ⟨hw', -⟩ | ⟨hf', -, -, hrows'⟩
        · exact absurd hr' hrun'
        · exact .inl (hw.trans hw'.symm)
        · exact .inr (.inl ⟨⟨hw, hbusy⟩, hf', hrows'⟩)
      · rcases ht'.cases with ⟨hr', -⟩ | ⟨hw', -, hbusy'⟩ | ⟨-, -, hlocked', -⟩
        · exact absurd hr' hrun'
        · exact .inr (.inr ⟨⟨hw', hbusy'⟩, hf, hrows⟩)
        · -- two flushes: one of them has `flushMu`
          exact .inl (h.unique t t' hlocked hlocked')

/-- Events and rows that are kept apart leave no conflict. -/
theorem WriteInv.not_conflict (h : WriteInv s q) (hapart : Apart s) : ¬ Conflict n q t t' := by
  rintro ⟨⟨rfl, hbusy⟩, hflush, hrows⟩
  have hheld : s.rowsHeld n = true := by
    rcases hflush with rfl | rfl
    · exact (h.each _).held n _ rfl hrows
    · exact (h.each _).held n _ rfl hrows
  exact hapart n ⟨(h.each _).busy n rfl hbusy, hheld⟩

end

/-- **Who can be writing at the same time.**  In every state of every run, the goroutines inside
`writeJSON` or `WriteMessage` on a connection are at most one, unless the session's writer and one
of its flushes are among them: `HELLO` comes before the goroutines, and `flushMu` keeps one flush
from another.  They are at most one in every state of the runs in which a session's writer takes no
event while a flush has rows in hand, and a flush finds no rows while the writer has an event in
hand. -/
theorem single_writer_iff (cfg : ManagerConfig) (table : Buffer.Table) :
    (∀ c, (managerSystem cfg).Reach ((managerSystem cfg).start (World.new table) entry) c → ∀ n,
      ((∀ t t', Inside n (c.threads t) → Inside n (c.threads t') → t = t') ↔
        ¬ (Inside n (c.threads (.session n .writer)) ∧
          (Inside n (c.threads (.session n .flushOnConnect)) ∨
            Inside n (c.threads (.session n .periodicFlush)))))) ∧
      ∀ c, ((managerSystem cfg).restrict takesTurns).Reach
        ((managerSystem cfg).start (World.new table) entry) c → ∀ n t t',
          Inside n (c.threads t) → Inside n (c.threads t') → t = t' := by
  have hinit : WriteInv (World.new table) fun _ => .init :=
    ⟨fun _ => ⟨nofun, nofun, fun _ _ _ _ => rfl, nofun, nofun, nofun⟩, nofun⟩
  have hhead : ∀ t, Head t (entry t) .init := by
    intro t
    cases t with
    | run => exact le_rfl
    | session n role => exact ⟨rfl, rfl⟩
  refine ⟨fun c hreach n => ?_, fun c hreach n t t' ht ht' => ?_⟩
  · obtain ⟨q, hinv, hfollows⟩ := (writeOutline cfg).reach
      ((writeOutline cfg).holds_start (q := fun _ => .init) hinit hhead) hreach
    have hmay : ∀ t, Inside n (c.threads t) → MayWrite n (q t) t :=
      fun t => mayWrite_of_inside cfg (hfollows t)
    constructor
    · rintro hone ⟨hwriter, hflush | hflush⟩
      · cases hone _ _ hwriter hflush
      · cases hone _ _ hwriter hflush
    · -- two of them would be the writer and a flush
      intro hno t t' ht ht'
      have hconflict : ∀ u u', Inside n (c.threads u) → Inside n (c.threads u') →
          ¬ Conflict n q u u' := by
        rintro u u' hu hu' ⟨⟨rfl, -⟩, rfl | rfl, -⟩
        · exact hno ⟨hu, .inl hu'⟩
        · exact hno ⟨hu, .inr hu'⟩
      rcases WriteInv.eq_or_conflict hinv (hmay t ht) (hmay t' ht') with heq | hc | hc
      · exact heq
      · exact absurd hc (hconflict t t' ht ht')
      · exact absurd hc (hconflict t' t ht' ht)
  · obtain ⟨q, ⟨hinv, hapart⟩, hfollows⟩ := (turnsOutline cfg).reach
      ((turnsOutline cfg).holds_start (q := fun _ => .init)
        ⟨hinit, fun _ h => by cases h.1⟩ hhead) hreach
    have hmay : ∀ t, Inside n (c.threads t) → MayWrite n (q t) t :=
      fun t => mayWrite_of_inside cfg (hfollows t)
    rcases WriteInv.eq_or_conflict hinv (hmay t ht) (hmay t' ht') with heq | hc | hc
    · exact heq
    · exact absurd hc (WriteInv.not_conflict hinv hapart)
    · exact absurd hc (WriteInv.not_conflict hinv hapart)

/-! ### An offline backlog and live traffic -/

/-- A message that was received while the tunnel was down. -/
def sampleMessage : Buffer.Message where
  iccid := lit "89490200000123456789"
  sender := lit "+12"
  body := lit "A"
  pduHash := lit "sha256:"
  smsc := []
  receivedAt := 0

/-- An event that a worker pushes. -/
def sampleEvent : Outbound :=
  .event (.modemAlert
    { envelope := { type := .modemAlert, messageID := [], ts := 0 }
      iccid := lit "89490200000123456789"
      alertCode := .simFull
      detail := [] })

/-- The answers in a run: nothing fails. -/
def sampleAnswer : (c : Call) → c.Ans
  | .pollCtx | .pollSession _ => false
  | .dial | .tick _ | .tryLock | .marshal _ _ | .setWriteDeadline _ _ | .writeMessage _ _ => true
  | .setReadDeadline _ _ | .markDelivered _ => true
  | .writeTime _ | .now => (0 : ℤ)
  | .readMessage _ => none
  | .select _ => .event (.outbox sampleEvent)
  | .registerAck _ | .takeAck _ => none
  | .timeAfter d => d
  | .awaitAck _ _ _ => .timeout
  | .pendingRows => some [⟨1, sampleMessage, .pending⟩]
  | .pendingCount => some (1 : ℕ)
  | .route _ => none
  | .status => ([] : List ModemStatus)
  | .newUUID => ([] : List UInt8)
  | .backOff | .cancel _ | .go _ _ | .started _ _ | .wgDone _ | .wgWait _ | .closeConn _ => ()
  | .unlock | .dropAck _ | .closeAck _ | .drainAcks | .purge | .push _ => ()

/-- A number of calls of a goroutine. -/
def sampleCalls (n : ℕ) (t : Thread) : List (System.Move Thread Call Call.Ans ℤ Outer) :=
  List.replicate n (.call t 0 sampleAnswer)

/-- The run: a row and an event wait, the session starts, the writer takes the event and the flush
its row, and both go on to `WriteMessage`. -/
def sampleRun : List (System.Move Thread Call Call.Ans ℤ Outer) :=
  [.env (.insert .none 0 sampleMessage), .env (.push sampleEvent)] ++ sampleCalls 15 .run ++
    sampleCalls 1 (.session 0 .writer) ++ [.jump (.session 0 .writer)] ++
    sampleCalls 4 (.session 0 .writer) ++ sampleCalls 1 (.session 0 .flushOnConnect) ++
    [.jump (.session 0 .flushOnConnect)] ++ sampleCalls 8 (.session 0 .flushOnConnect)

def sampleConfig : ManagerConfig where
  gatewayID := []
  agentVersion := []
  pingTimeout := 0
  ackTimeout := 10 * 1000000000
  writeDeadline := 0
  startTime := 0

/-- A goroutine stands at `WriteMessage` on connection `n`. -/
def atWriteMessage (n : ℕ) : System.Local Call Call.Ans Label Unit → Bool
  | .running (.call (.writeMessage m _) _) => m = n
  | _ => false

/-- The writer and the flush on connect are both in `writeJSON` on the first connection, and there
in `WriteMessage`. -/
theorem not_single_writer :
    ∃ c, (managerSystem sampleConfig).Reach
        ((managerSystem sampleConfig).start (World.new .empty) entry) c ∧
      ∃ t t', t ≠ t' ∧ (Inside 0 (c.threads t) ∧ Inside 0 (c.threads t')) ∧
        atWriteMessage 0 (c.threads t) ∧ atWriteMessage 0 (c.threads t') := by
  have hplay : ((managerSystem sampleConfig).play
      ((managerSystem sampleConfig).start (World.new .empty) entry) sampleRun).map
        (fun c => decide ((Inside 0 (c.threads (.session 0 .writer)) ∧
            Inside 0 (c.threads (.session 0 .flushOnConnect))) ∧
          atWriteMessage 0 (c.threads (.session 0 .writer)) ∧
            atWriteMessage 0 (c.threads (.session 0 .flushOnConnect)))) = some true := by
    decide +kernel
  obtain ⟨c, hc, hinside⟩ := Option.map_eq_some_iff.mp hplay
  exact ⟨c, System.reach_of_play hc, .session 0 .writer, .session 0 .flushOnConnect, nofun,
    of_decide_eq_true hinside⟩

end SmsGate.Tunnel
