import SmsGate.Prog.History
import SmsGate.Tunnel.Equiv.Writers

/-!
# What becomes of the events in the outbox

`Push` puts an event into the outbox, a session's writer takes it out and writes it.  An event that
was taken has no other copy: if its write fails, the writer ends its session and the event is gone.

* `outbox_kept_iff`: over all runs, every event that was accepted is still in the outbox or was
  written without an error just when no write of an event that was taken has failed and none is
  still going on;
* `not_outbox_kept`: a run in which `WriteMessage` fails and the event is nowhere.
-/

namespace SmsGate.Tunnel

open Go

/-- What has happened in a run, the newest first. -/
abbrev History := List (System.Occurrence Thread World Call Call.Ans Outer)

/-- A state of the tunnel with its history. -/
abbrev RecordedConfig :=
  System.Config Thread (System.Recorded Thread World Call Call.Ans Outer) Call Call.Ans Label Unit

/-! ### What a history tells of the events -/

/-- The event that an occurrence puts into the outbox. -/
def acceptedBy : System.Occurrence Thread World Call Call.Ans Outer → List Outbound
  | .call _ (.push m) _ s | .env (.push m) s => if s.outbox.length < outboxCap then [m] else []
  | _ => []

/-- The events that `Push` has put into the outbox, in order. -/
def accepted : History → List Outbound
  | [] => []
  | x :: past => accepted past ++ acceptedBy x

/-- What has become of an event that was taken out of the outbox. -/
inductive Fate where
  /-- The goroutine has not written it yet. -/
  | inHand (t : Thread)
  | written
  | lost
  deriving DecidableEq

/-- The event that a call takes out of the outbox. -/
def Call.taken : (c : Call) → c.Ans → Option Outbound
  | .select _, (.event (.outbox m) : Selected) => some m
  | _, _ => none

/-- What becomes of event `m` in the hands of a goroutine that makes a call: it is written by a
`WriteMessage` that returns no error, and lost by another end of `writeJSON`. -/
def Call.settles (m : Outbound) : (c : Call) → c.Ans → Option Fate
  | .marshal _ _, (ok : Bool) => if ok then none else some .lost
  | .setWriteDeadline _ _, (ok : Bool) => if ok then none else some .lost
  | .writeMessage _ f, (ok : Bool) => if ok ∧ f = .text m then some .written else some .lost
  | _, _ => none

/-- An event that was taken, after a call of `t`. -/
def Fate.after (t : Thread) (c : Call) (a : c.Ans) (p : Outbound × Fate) : Outbound × Fate :=
  if p.2 = .inHand t then (p.1, (c.settles p.1 a).getD p.2) else p

/-- The events that were taken out of the outbox, in order, and what has become of them. -/
def fates : History → List (Outbound × Fate)
  | [] => []
  | .call t c a _ :: past =>
    (fates past).map (Fate.after t c a) ++ (c.taken a).toList.map (·, .inHand t)
  | _ :: past => fates past

/-- Every event that was accepted is still in the outbox or was written without an error.  The
outbox is a queue: the events that were taken out are the first that were accepted. -/
def OutboxKept (past : History) (s : World) : Prop :=
  ∀ i m, (accepted past)[i]? = some m →
    (fates past)[i]? = some (m, .written) ∨
      ∃ j, i = (fates past).length + j ∧ s.outbox[j]? = some m

/-! ### The writer has one event in hand -/

/-- The calls that write event `m` to connection `n`. -/
def Call.Writes (n : ℕ) (m : Outbound) : Call → Prop
  | marshal k m' => k = n ∧ m' = m
  | writeTime k => k = n
  | setWriteDeadline k _ => k = n
  | writeMessage k f => k = n ∧ f = .text m
  | _ => False

/-- A goroutine that has taken an event writes it before it does anything else.  The state is the
event in hand, and the connection. -/
def outboxProtocol : Protocol Call Call.Ans (Option (ℕ × Outbound)) where
  allows
    | none, _ => True
    | some (n, m), c => c.Writes n m
  next
    | none, .select n, (.event (.outbox m) : Selected) => some (n, m)
    | none, _, _ => none
    | some (n, m), c, a => if (c.settles m a).isSome then none else some (n, m)

/-- A program that takes no events. -/
theorem outboxProtocol_idle (c : Call) (hc : ∀ n, c ≠ .select n) :
    outboxProtocol.allows none c ∧ ∀ a, outboxProtocol.next none c a = none := by
  refine ⟨trivial, fun a => ?_⟩
  cases c with
  | select n => exact absurd rfl (hc n)
  | _ => rfl

section Obeys

variable {cfg : ManagerConfig} {n : ℕ}

/-- `writeJSON` with the event in hand. -/
theorem writeJSON_settles (m : Outbound) :
    (writeJSON cfg n m).Obeys outboxProtocol (some (n, m)) fun _ q => q = none := by
  refine Prog.perform_bind_obeys ⟨rfl, rfl⟩ fun (marshalled : Bool) => ?_
  cases marshalled with
  | false => rfl
  | true =>
    refine Prog.perform_bind_obeys rfl fun _ => ?_
    refine Prog.perform_bind_obeys rfl fun (set : Bool) => ?_
    cases set with
    | false => rfl
    | true =>
      refine ⟨⟨rfl, rfl⟩, fun (written : Bool) => ?_⟩
      cases written with
      | false => rfl
      | true =>
        have hsettled : Call.settles m (.writeMessage n (.text m)) true = some .written :=
          if_pos ⟨rfl, rfl⟩
        exact if_pos (by rw [hsettled]; rfl)

theorem writer_settles : (writer cfg n).Obeys outboxProtocol none fun _ q => q = none := by
  -- once the event is written or lost, nothing is in hand
  have hrest : ∀ ok : Bool, (if ok then (pure (.inl (.loop n .writer)) : Io (Label ⊕ Unit)) else do
      ask (.cancel n); ask (.wgDone n); return .inr ()).Obeys outboxProtocol none
        fun _ q => q = none := by
    intro ok
    cases ok with
    | true => exact rfl
    | false =>
      exact Prog.perform_bind_obeys trivial fun _ => Prog.perform_bind_obeys trivial fun _ => rfl
  have hok : ∀ c, c.common → (ask c).Calls fun c => ∀ n, c ≠ .select n := by
    intro c hc
    refine calls_ask ?_
    rintro n rfl
    cases hc
  refine Prog.perform_bind_obeys trivial fun (selected : Selected) => ?_
  cases selected with
  | ctxDone => exact Prog.perform_bind_obeys trivial fun _ => rfl
  | event e =>
    cases e with
    | outbox m =>
      refine (writeJSON_settles m).bind ?_
      rintro ok _ rfl
      exact hrest ok
    | ping => exact (closed_sendPing (Prog.closed_calls _) hok).bind_obeys outboxProtocol_idle hrest
    | heartbeat =>
      have hwrite : ∀ m, (writeJSON cfg n m).Calls fun c => ∀ n, c ≠ .select n :=
        closed_writeJSON (Prog.closed_calls _) hok fun _ => calls_ask nofun
      exact (closed_sendHeartbeat (Prog.closed_calls _) hok hwrite).bind_obeys outboxProtocol_idle
        hrest

theorem block_settles (l : Label) :
    (block cfg l).Obeys outboxProtocol none fun _ q => q = none := by
  by_cases hwriter : ∃ n, l = .loop n .writer
  · obtain ⟨n, rfl⟩ := hwriter
    exact writer_settles
  · have hidle : (block cfg l).Calls fun c => ∀ n, c ≠ .select n :=
      (calls_block l).mono fun c hc n hn => hwriter (hc.select n hn)
    exact hidle.obeys outboxProtocol_idle fun _ => rfl

end Obeys

/-! ### Where the events are -/

section

variable {s s' : World} {past : History}

/-- The calls on the outbox. -/
def Call.usesOutbox : Call → Bool
  | select _ | push _ => true
  | _ => false

/-- The other calls leave the outbox alone. -/
theorem outbox_of_exec_other {t : Thread} {ms : ℤ} {c : Call} {a : c.Ans}
    (hc : c.usesOutbox = false) (hexec : s.exec t ms c a = some s') : s'.outbox = s.outbox := by
  refine view_of_exec (f := World.outbox) ?_ hexec
  cases c with
  | select | push => cases hc
  | _ => simp [Call.Leaves]

/-- A call takes events from the front of the outbox and puts them in at its end. -/
theorem outbox_of_exec {t : Thread} {ms : ℤ} {c : Call} {a : c.Ans}
    (hexec : s.exec t ms c a = some s') :
    (c.taken a).toList ++ s'.outbox = s.outbox ++ acceptedBy (.call t c a s) := by
  cases c with
  | select n =>
    have hnone : acceptedBy (.call t (.select n) a s) = [] := rfl
    rw [hnone, List.append_nil]
    cases a with
    | ctxDone =>
      obtain ⟨-, hs⟩ := Option.ite_none_right_eq_some.mp hexec
      cases hs
      rfl
    | event e =>
      cases e with
      | outbox m =>
        simp only [World.exec] at hexec
        split at hexec
        · rename_i m' rest houtbox
          obtain ⟨rfl, hs⟩ := Option.ite_none_right_eq_some.mp hexec
          cases hs
          obtain ⟨busy, hbusy⟩ := exists_take t { s with outbox := rest }
          rw [hbusy, houtbox]
          rfl
        · cases hexec
      | ping | heartbeat =>
        cases hexec
        obtain ⟨busy, hbusy⟩ := exists_take t s
        rw [hbusy]
        rfl
  | push m =>
    cases hexec
    simp only [acceptedBy]
    split_ifs
    · rfl
    · exact (List.append_nil s.outbox).symm
  | _ =>
    rw [outbox_of_exec_other rfl hexec]
    exact (List.append_nil s.outbox).symm

theorem outbox_of_outer {v : Outer} (hstep : v.step s = some s') :
    s'.outbox = s.outbox ++ acceptedBy (.env v s) := by
  cases v with
  | push m =>
    cases hstep
    simp only [acceptedBy]
    split_ifs
    · rfl
    · exact (List.append_nil s.outbox).symm
  | _ =>
    cases hstep
    exact (List.append_nil s.outbox).symm

theorem fst_after (t : Thread) (c : Call) (a : c.Ans) (p : Outbound × Fate) :
    (Fate.after t c a p).1 = p.1 := by
  unfold Fate.after
  split_ifs <;> rfl

theorem settles_ne_inHand {m : Outbound} {c : Call} {a : c.Ans} {t : Thread} :
    c.settles m a ≠ some (.inHand t) := by
  cases c with
  | marshal | setWriteDeadline | writeMessage =>
    simp only [Call.settles]
    split_ifs <;> nofun
  | _ => nofun

/-- An event that is in hand after a call was in hand before, and the call has not settled it. -/
theorem inHand_of_after {t u : Thread} {c : Call} {a : c.Ans} {p : Outbound × Fate} {m : Outbound}
    (h : Fate.after t c a p = (m, .inHand u)) :
    p = (m, .inHand u) ∧ (u = t → c.settles m a = none) := by
  obtain ⟨m', f⟩ := p
  obtain rfl : m' = m := (fst_after t c a (m', f)).symm.trans (congrArg Prod.fst h)
  by_cases hf : f = .inHand t
  · subst hf
    simp only [Fate.after, if_true] at h
    cases hsettles : c.settles m' a with
    | none =>
      rw [hsettles] at h
      exact ⟨h, fun _ => rfl⟩
    | some f =>
      rw [hsettles] at h
      obtain rfl : f = .inHand u := congrArg Prod.snd h
      exact absurd hsettles settles_ne_inHand
  · simp only [Fate.after, if_neg hf] at h
    refine ⟨h, ?_⟩
    rintro rfl
    exact absurd (congrArg Prod.snd h) hf

/-- A goroutine that takes an event has it in hand. -/
theorem next_of_taken {q : Option (ℕ × Outbound)} {c : Call} {a : c.Ans} {m : Outbound}
    (hallow : outboxProtocol.allows q c) (htaken : c.taken a = some m) :
    ∃ n, outboxProtocol.next q c a = some (n, m) := by
  cases c with
  | select n =>
    cases q with
    | some p => exact hallow.elim
    | none =>
      cases a with
      | ctxDone => cases htaken
      | event e =>
        cases e with
        | outbox m' =>
          cases htaken
          exact ⟨n, rfl⟩
        | ping | heartbeat => cases htaken
  | _ => cases htaken

/-- Every event that was accepted is accounted for: those that were taken and those in the outbox,
in this order.  One that is in hand is in the hands of a goroutine that is writing it. -/
structure Accounted (s : World) (past : History) (q : Thread → Option (ℕ × Outbound)) : Prop where
  order : accepted past = (fates past).map Prod.fst ++ s.outbox
  inHand : ∀ t m, (m, .inHand t) ∈ fates past → ∃ n, q t = some (n, m)

variable {q : Thread → Option (ℕ × Outbound)}

theorem Accounted.call {t : Thread} {ms : ℤ} {c : Call} {a : c.Ans} (h : Accounted s past q)
    (hallow : outboxProtocol.allows (q t) c) (hexec : s.exec t ms c a = some s') :
    Accounted s' (.call t c a s :: past) (Function.update q t (outboxProtocol.next (q t) c a)) where
  order := by
    have hfst : ((fates past).map (Fate.after t c a)).map Prod.fst = (fates past).map Prod.fst := by
      rw [List.map_map]
      exact List.map_congr_left fun p _ => fst_after t c a p
    have htaken : ((c.taken a).toList.map fun m => (m, Fate.inHand t)).map Prod.fst =
        (c.taken a).toList := by
      rw [List.map_map]
      exact List.map_id _
    calc accepted past ++ acceptedBy (.call t c a s)
        = (fates past).map Prod.fst ++ (s.outbox ++ acceptedBy (.call t c a s)) := by
          rw [h.order, List.append_assoc]
      _ = (fates past).map Prod.fst ++ ((c.taken a).toList ++ s'.outbox) := by
          rw [outbox_of_exec hexec]
      _ = (fates (.call t c a s :: past)).map Prod.fst ++ s'.outbox := by
          rw [fates, List.map_append, hfst, htaken, List.append_assoc]
  inHand u m hmem := by
    rcases List.mem_append.mp hmem with hmem | hmem
    -- it was in hand before, and this call has not settled it
    · obtain ⟨p, hp, hafter⟩ := List.mem_map.mp hmem
      obtain ⟨rfl, hsettles⟩ := inHand_of_after hafter
      obtain ⟨n, hn⟩ := h.inHand u m hp
      refine ⟨n, ?_⟩
      by_cases hu : u = t
      · subst hu
        rw [Function.update_self, hn]
        simp only [outboxProtocol, hsettles rfl]
        rfl
      · rw [Function.update_of_ne hu, hn]
    -- it is the one that this call has taken
    · obtain ⟨m', htaken, heq⟩ := List.mem_map.mp hmem
      cases heq
      rw [Function.update_self]
      exact next_of_taken hallow (Option.mem_toList.mp htaken)

theorem Accounted.outer {v : Outer} (h : Accounted s past q) (hstep : v.step s = some s') :
    Accounted s' (.env v s :: past) q where
  order := by
    have hacc : accepted (.env v s :: past) = accepted past ++ acceptedBy (.env v s) := rfl
    rw [hacc, h.order, outbox_of_outer hstep, List.append_assoc]
    rfl
  inHand := h.inHand

/-- With everything accounted for, the events that are kept are all but those that are lost or in
hand. -/
theorem Accounted.kept_iff (h : Accounted s past q) :
    OutboxKept past s ↔ ∀ p ∈ fates past, p.2 = .written := by
  -- the events that were taken come first, in the order of their fates
  have hlen : ∀ i, i < (fates past).length →
      (accepted past)[i]? = ((fates past)[i]?).map Prod.fst := by
    intro i hi
    rw [h.order, List.getElem?_append_left (by rwa [List.length_map]), List.getElem?_map]
  constructor
  · intro hkept p hp
    obtain ⟨i, hi, hget⟩ := List.getElem_of_mem hp
    have hsome : (fates past)[i]? = some p := List.getElem?_eq_some_iff.mpr ⟨hi, hget⟩
    have hacc : (accepted past)[i]? = some p.1 := by
      rw [hlen i hi, hsome]
      rfl
    rcases hkept i p.1 hacc with hwritten | ⟨j, hj, -⟩
    · rw [hsome] at hwritten
      exact congrArg Prod.snd (Option.some.inj hwritten)
    · omega
  · intro hall i m hm
    by_cases hi : i < (fates past).length
    · rw [hlen i hi] at hm
      obtain ⟨p, hp, rfl⟩ := Option.map_eq_some_iff.mp hm
      refine .inl (hp.trans (congrArg some (Prod.ext rfl ?_)))
      exact hall p (List.mem_of_getElem? hp)
    · have hle : (fates past).length ≤ i := Nat.le_of_not_lt hi
      rw [h.order, List.getElem?_append_right (by rwa [List.length_map]), List.length_map] at hm
      exact .inr ⟨i - (fates past).length, (Nat.add_sub_cancel' hle).symm, hm⟩

end

/-- The proof outline. -/
def outboxOutline (cfg : ManagerConfig) :
    System.Outline (managerSystem cfg).recorded fun _ => outboxProtocol where
  head _ _ q := q = none
  final _ _ q := q = none
  inv s q := Accounted s.state s.history q
  block_obeys t l q hq := by
    subst hq
    refine (block_settles l).mono fun res q hq => ?_
    cases res with
    | inl l => exact hq
    | inr r => exact hq
  call_inv t ch s q c a s' hinv hallow hexec := by
    obtain ⟨s₁, hcall, rfl⟩ := System.recorded_exec_iff.mp hexec
    exact hinv.call hallow hcall
  env_inv v s q s' hinv hstep := by
    obtain ⟨s₁, houter, rfl⟩ := System.recorded_env_iff.mp hstep
    exact hinv.outer houter
  crash_inv _ _ _ _ _ _ hcrash := nomatch hcrash

/-- A goroutine that has an event in hand stands at a call that writes it. -/
theorem inside_of_follows {cfg : ManagerConfig} {t : Thread} {n : ℕ} {m : Outbound}
    {l : System.Local Call Call.Ans Label Unit}
    (h : (outboxOutline cfg).Follows t l (some (n, m))) : Inside n l := by
  cases l with
  | stopped r => cases h
  | running p =>
    cases p with
    | ret res => cases res <;> cases h
    | call c k =>
      have hwrites : c.Writes n m := h.1
      cases c with
      | marshal | writeMessage =>
        obtain ⟨rfl, -⟩ := hwrites
        rfl
      | writeTime | setWriteDeadline => exact congrArg some hwrites
      | _ => exact hwrites.elim

/-- **What becomes of the events in the outbox.**  In every state of every run, the events that
`Push` has accepted are those that were taken out of the outbox and those in it, in this order, and
all of them are in the outbox or were written by a `WriteMessage` that returned no error just when
every event that was taken out has been written so: none was lost to an error of `Marshal`,
`SetWriteDeadline` or `WriteMessage`, and none is in the hands of a goroutine, which is then inside
`writeJSON`. -/
theorem outbox_kept_iff (cfg : ManagerConfig) (table : Buffer.Table) (c : RecordedConfig)
    (hreach : (managerSystem cfg).recorded.Reach
      ((managerSystem cfg).recorded.start ⟨World.new table, []⟩ entry) c) :
    accepted c.state.history = (fates c.state.history).map Prod.fst ++ c.state.state.outbox ∧
      (OutboxKept c.state.history c.state.state ↔
        (∀ m, (m, .lost) ∉ fates c.state.history) ∧
          ∀ m t, (m, .inHand t) ∉ fates c.state.history) ∧
      ∀ m t, (m, .inHand t) ∈ fates c.state.history → ∃ n, Inside n (c.threads t) := by
  have hnew : Accounted (World.new table) [] fun _ => none :=
    ⟨rfl, fun _ _ hmem => absurd hmem List.not_mem_nil⟩
  obtain ⟨q, hinv, hfollows⟩ := (outboxOutline cfg).reach
    ((outboxOutline cfg).holds_start (s := ⟨World.new table, []⟩) hnew fun _ => rfl) hreach
  refine ⟨hinv.order, hinv.kept_iff.trans ⟨fun hall => ⟨?_, ?_⟩, ?_⟩, fun m t hmem => ?_⟩
  · intro m hmem
    cases hall _ hmem
  · intro m t hmem
    cases hall _ hmem
  · rintro ⟨hlost, hinHand⟩ ⟨m, f⟩ hmem
    cases f with
    | inHand t => exact absurd hmem (hinHand m t)
    | lost => exact absurd hmem (hlost m)
    | written => rfl
  · obtain ⟨n, hn⟩ := hinv.inHand t m hmem
    have ht := hfollows t
    rw [hn] at ht
    exact ⟨n, inside_of_follows ht⟩

/-! ### An event on a session that works, and on one that fails -/

/-- The run up to the writer's `WriteMessage`: an event waits, the session starts, and its writer
takes the event. -/
def outboxRun : List (System.Move Thread Call Call.Ans ℤ Outer) :=
  [.env (.push sampleEvent)] ++ sampleCalls 15 .run ++ sampleCalls 1 (.session 0 .writer) ++
    [.jump (.session 0 .writer)] ++ sampleCalls 4 (.session 0 .writer)

/-- The answers in a run on a connection that has failed. -/
def failedAnswer : (c : Call) → c.Ans
  | .writeMessage _ _ => false
  | c => sampleAnswer c

/-- What the history of a run tells of the events, and the outbox. -/
def outboxReport (c : RecordedConfig) : List Outbound × List (Outbound × Fate) × List Outbound :=
  (accepted c.state.history, fates c.state.history, c.state.state.outbox)

/-- On a connection that works the event is written. -/
theorem outbox_kept_iff_written :
    ∃ c, (managerSystem sampleConfig).recorded.Reach
        ((managerSystem sampleConfig).recorded.start ⟨World.new .empty, []⟩ entry) c ∧
      accepted c.state.history = [sampleEvent] ∧ c.state.state.outbox = [] ∧
        OutboxKept c.state.history c.state.state := by
  have hplay : ((managerSystem sampleConfig).recorded.play
      ((managerSystem sampleConfig).recorded.start ⟨World.new .empty, []⟩ entry)
        (outboxRun ++ sampleCalls 1 (.session 0 .writer))).map outboxReport =
      some ([sampleEvent], [(sampleEvent, .written)], []) := by
    decide +kernel
  obtain ⟨c, hc, hreport⟩ := Option.map_eq_some_iff.mp hplay
  have hreach := System.reach_of_play hc
  obtain ⟨hacc, hfates, houtbox⟩ : accepted c.state.history = [sampleEvent] ∧
      fates c.state.history = [(sampleEvent, .written)] ∧ c.state.state.outbox = [] := by
    simpa only [outboxReport, Prod.mk.injEq] using hreport
  refine ⟨c, hreach, hacc, houtbox, (outbox_kept_iff _ _ c hreach).2.1.mpr ?_⟩
  rw [hfates]
  refine ⟨fun m hm => ?_, fun m t hm => ?_⟩
  · cases List.mem_singleton.mp hm
  · cases List.mem_singleton.mp hm

/-- `WriteMessage` fails: the event is not in the outbox, no frame with it was written, and the
writer has ended its session. -/
theorem not_outbox_kept :
    ∃ c, (managerSystem sampleConfig).recorded.Reach
        ((managerSystem sampleConfig).recorded.start ⟨World.new .empty, []⟩ entry) c ∧
      accepted c.state.history = [sampleEvent] ∧ ¬ OutboxKept c.state.history c.state.state ∧
        c.state.state.outbox = [] ∧ (∀ n, (n, .text sampleEvent) ∉ c.state.state.written) ∧
          c.state.state.cancelled 0 = true := by
  have hplay : ((managerSystem sampleConfig).recorded.play
      ((managerSystem sampleConfig).recorded.start ⟨World.new .empty, []⟩ entry)
        (outboxRun ++ [.call (.session 0 .writer) 0 failedAnswer] ++
          sampleCalls 2 (.session 0 .writer) ++ [.jump (.session 0 .writer)])).map
        (fun c => (outboxReport c,
          decide (.text sampleEvent ∈ c.state.state.written.map Prod.snd),
          c.state.state.cancelled 0)) =
      some (([sampleEvent], [(sampleEvent, .lost)], []), false, true) := by
    decide +kernel
  obtain ⟨c, hc, hreport⟩ := Option.map_eq_some_iff.mp hplay
  obtain ⟨⟨hacc, hfates, houtbox⟩, hwritten, hcancelled⟩ :
      (accepted c.state.history = [sampleEvent] ∧
        fates c.state.history = [(sampleEvent, .lost)] ∧ c.state.state.outbox = []) ∧
      .text sampleEvent ∉ c.state.state.written.map Prod.snd ∧
        c.state.state.cancelled 0 = true := by
    simpa only [outboxReport, Prod.mk.injEq, decide_eq_false_iff_not] using hreport
  refine ⟨c, System.reach_of_play hc, hacc, fun hkept => ?_, houtbox, fun n hn => ?_, hcancelled⟩
  · have hfirst : (accepted c.state.history)[0]? = some sampleEvent := by
      rw [hacc]
      rfl
    rcases hkept 0 sampleEvent hfirst with h | ⟨j, hj, -⟩
    · rw [hfates] at h
      cases h
    · rw [hfates, List.length_singleton] at hj
      omega
  · exact hwritten (List.mem_map_of_mem hn)

end SmsGate.Tunnel
