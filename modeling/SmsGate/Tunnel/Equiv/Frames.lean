import SmsGate.Tunnel.Equiv.Carry
import SmsGate.Tunnel.Equiv.Sessions

/-!
# What goes over a connection, and in which order

A session starts with `HELLO`.  After it come the events of the outbox, the pings and the
heartbeats, all from the writer, and the rows of the buffer from the flushes.

* `events_in_order`: over all runs, the events that the writers write, on whichever connection, are
  written in the order in which they were pushed, and each at most once;
* `hello_first`: over all runs, the first frame on a connection is the gateway's `HELLO`, and the
  others are pings, heartbeats, rows that a flush has read from the buffer, and events that somebody
  has pushed.
-/

namespace SmsGate.Tunnel

open Go

/-! ### The events that are written -/

/-- The message is a heartbeat. -/
def Outbound.isHeartbeat : Outbound → Bool
  | heartbeat _ => true
  | _ => false

/-- The event that a writer has written, if it is not a heartbeat: those are the writer's own. -/
def sentBy (t : Thread) (_ : World) : (c : Call) → c.Ans → List Outbound
  | .writeMessage _ (.text m), (ok : Bool) =>
    match t with
    | .session _ .writer => if ok && !m.isHeartbeat then [m] else []
    | _ => []
  | _, _ => []

/-- The events that the writers have written, in order. -/
def sentEvents (past : History) : List Outbound := System.collectedCalls sentBy past

/-- An event that was written, if it is not a heartbeat. -/
def sentOf (p : Outbound × Fate) : Option Outbound :=
  if p.2 = .written ∧ p.1.isHeartbeat = false then some p.1 else none

/-- At most one event is in hand, and it is the last one that was taken. -/
structure InOrder (past : History) (q : Thread → Station) : Prop where
  last : ∀ t n m, (q t).2 = some (n, m) → ∃ earlier, fates past = earlier ++ [(m, .inHand t)] ∧
    ∀ p ∈ earlier, ∀ u, p.2 ≠ .inHand u
  sent : sentEvents past = (fates past).filterMap sentOf

section

variable {cfg : ManagerConfig} {s s' : World} {past : History} {q : Thread → Station} {t : Thread}
  {ms : ℤ} {c : Call} {a : c.Ans}

/-- The events in hand. -/
abbrev hands (q : Thread → Station) (t : Thread) : Option (ℕ × Outbound) := (q t).2

theorem hands_update {p : Station} :
    hands (Function.update q t p) = Function.update (hands q) t p.2 := by
  funext u
  by_cases hu : u = t
  · subst hu
    rw [hands, Function.update_self, Function.update_self]
  · rw [hands, Function.update_of_ne hu, Function.update_of_ne hu]

/-- A call changes nothing about the events that are not in the caller's hands. -/
theorem map_after_eq {l : List (Outbound × Fate)} (h : ∀ p ∈ l, p.2 ≠ .inHand t) :
    l.map (Fate.after t c a) = l := by
  refine (List.map_congr_left fun p hp => ?_).trans (List.map_id l)
  exact if_neg (h p hp)

theorem not_inHand_of_none (h : Accounted s past (hands q)) (hnone : (q t).2 = none) :
    ∀ p ∈ fates past, p.2 ≠ .inHand t := by
  rintro ⟨m, f⟩ hp rfl
  obtain ⟨n, hn⟩ := h.inHand t m hp
  rw [hands, hnone] at hn
  cases hn

/-- Of two writers that have events in hand or take one, one is the other. -/
theorem eq_of_hand (hinv : SessionInv s q) {n m : ℕ} {e : Outbound} {u : Thread}
    (ht : t = .session n .writer) (hrunning : (q t).1 = .running) (hu : (q u).2 = some (m, e)) :
    u = t := by
  obtain ⟨rfl, hrunning'⟩ := hinv.hand u m e hu
  subst ht
  have hrole : Role.awaited .writer := rfl
  have hm : (q (.session m .writer)).1.active := by
    rw [hrunning']
    rfl
  have hn : (q (.session n .writer)).1.active := by
    rw [hrunning]
    rfl
  rw [hinv.eq_of_running hrole hrole hm hn]

/-- With nothing in hand a writer writes nothing but pings and heartbeats. -/
theorem sentBy_of_none (hallow : (sessionProtocol cfg t).allows (q t) c)
    (hnone : (q t).2 = none) : sentBy t s c a = [] := by
  have hmay := hallow.2
  cases c with
  | writeMessage n f =>
    cases f with
    | ping => rfl
    | text m =>
      cases t with
      | run => rfl
      | session k role =>
        cases role with
        | writer =>
          have hroutine : (Frame.text m).routine := hmay.2.2 hnone
          cases m with
          | heartbeat e => cases a <;> rfl
          | _ => cases hroutine
        | _ => rfl
  | _ => rfl

/-- A call that takes an event is a `select` of a writer. -/
theorem select_of_taken {m : Outbound} (hallow : (sessionProtocol cfg t).allows (q t) c)
    (htaken : c.taken a = some m) : ∃ n, t = .session n .writer ∧ (q t).1 = .running := by
  have hmay := hallow.2
  cases c with
  | select n => exact ⟨n, hmay⟩
  | _ => cases htaken

/-- A goroutine that has an event in hand now, and had none before, has taken it. -/
theorem taken_of_next {p : Station} {n : ℕ} {m : Outbound} (hnone : p.2 = none)
    (hnext : ((sessionProtocol cfg t).next p c a).2 = some (n, m)) : c.taken a = some m := by
  obtain ⟨stage, hand⟩ := p
  obtain rfl : hand = none := hnone
  cases c with
  | select k =>
    cases a with
    | ctxDone => cases hnext
    | event e =>
      cases e with
      | outbox m' =>
        cases hnext
        rfl
      | ping | heartbeat => cases hnext
  | _ => cases hnext

/-- A goroutine with nothing in hand makes a call. -/
theorem InOrder.call_none (h : InOrder past q) (hinv : SessionInv s q)
    (hacc : Accounted s past (hands q)) (hallow : (sessionProtocol cfg t).allows (q t) c)
    (hnone : (q t).2 = none) :
    InOrder (.call t c a s :: past)
      (Function.update q t ((sessionProtocol cfg t).next (q t) c a)) := by
  have hfates : fates (.call t c a s :: past) =
      fates past ++ (c.taken a).toList.map (·, .inHand t) := by
    rw [fates, map_after_eq (not_inHand_of_none hacc hnone)]
  constructor
  · intro u n m hu
    rw [hfates]
    cases htaken : c.taken a with
    | none =>
      rw [Option.toList_none, List.map_nil, List.append_nil]
      by_cases hut : u = t
      · subst hut
        rw [Function.update_self] at hu
        rw [taken_of_next hnone hu] at htaken
        cases htaken
      · rw [Function.update_of_ne hut] at hu
        exact h.last u n m hu
    | some m' =>
      obtain ⟨k, ht, hrunning⟩ := select_of_taken hallow htaken
      by_cases hut : u = t
      · subst hut
        rw [Function.update_self] at hu
        obtain ⟨k', hnext⟩ := next_of_taken hallow.1 htaken
        have hm : some (n, m) = some (k', m') := hu.symm.trans hnext
        cases hm
        refine ⟨fates past, rfl, ?_⟩
        rintro ⟨m'', f⟩ hp v rfl
        obtain ⟨k'', hv⟩ := hacc.inHand v m'' hp
        have hvt := eq_of_hand hinv ht hrunning hv
        rw [hvt, hands, hnone] at hv
        cases hv
      · rw [Function.update_of_ne hut] at hu
        exact absurd (eq_of_hand hinv ht hrunning hu) hut
  · rw [sentEvents, System.collectedCalls_call, sentBy_of_none hallow hnone, List.append_nil,
      hfates, List.filterMap_append, ← sentEvents, h.sent]
    cases c.taken a <;> simp [sentOf]

/-- The event that a writer has in hand is one that it has written once the call has settled it
so. -/
theorem sentBy_of_hand {n : ℕ} {m : Outbound} (hwrites : c.Writes n m) :
    sentBy (.session n .writer) s c a =
      (sentOf (m, (c.settles m a).getD (.inHand (.session n .writer)))).toList := by
  cases c with
  | marshal | setWriteDeadline => cases a <;> rfl
  | writeTime => rfl
  | writeMessage k f =>
    obtain ⟨rfl, rfl⟩ := hwrites
    cases a with
    | false =>
      have hlost : Call.settles m (.writeMessage k (.text m)) false = some .lost := rfl
      rw [hlost]
      rfl
    | true =>
      have hwritten : Call.settles m (.writeMessage k (.text m)) true = some .written :=
        if_pos ⟨rfl, rfl⟩
      rw [hwritten]
      cases hm : m.isHeartbeat <;> simp [sentBy, sentOf, hm]
  | _ => exact hwrites.elim

/-- The goroutine that has an event in hand makes a call. -/
theorem InOrder.call_hand (h : InOrder past q) (hinv : SessionInv s q) {n : ℕ} {m : Outbound}
    (hallow : (sessionProtocol cfg t).allows (q t) c) (hhand : (q t).2 = some (n, m)) :
    InOrder (.call t c a s :: past)
      (Function.update q t ((sessionProtocol cfg t).next (q t) c a)) := by
  obtain ⟨rfl, -⟩ := hinv.hand t n m hhand
  obtain ⟨earlier, hfates, hearlier⟩ := h.last _ n m hhand
  have hwrites : c.Writes n m := by
    have houtbox := hallow.1
    rwa [hhand] at houtbox
  have htaken : c.taken a = none := by
    cases c with
    | select k => exact hwrites.elim
    | _ => rfl
  -- only the last event can change
  have hfates' : fates (.call (.session n .writer) c a s :: past) =
      earlier ++ [(m, (c.settles m a).getD (.inHand (.session n .writer)))] := by
    rw [fates, htaken, hfates, List.map_append, map_after_eq fun p hp => hearlier p hp _]
    simp [Fate.after]
  constructor
  · intro u k e hu
    by_cases hut : u = .session n .writer
    · subst hut
      rw [Function.update_self] at hu
      have hnext : outboxProtocol.next (some (n, m)) c a = some (k, e) := by
        simpa only [sessionProtocol, hhand] using hu
      obtain ⟨hsettles, hke⟩ := Option.ite_none_left_eq_some.mp hnext
      cases hke
      rw [Option.not_isSome_iff_eq_none.mp hsettles] at hfates'
      exact ⟨earlier, hfates', hearlier⟩
    · rw [Function.update_of_ne hut] at hu
      obtain ⟨earlier', hlast, -⟩ := h.last u k e hu
      rw [hfates] at hlast
      have heq := (List.append_inj' hlast rfl).2
      cases heq
      exact absurd rfl hut
  · rw [sentEvents, System.collectedCalls_call, sentBy_of_hand hwrites, ← sentEvents, h.sent,
      hfates, hfates', List.filterMap_append, List.filterMap_append]
    have hinHand : [(m, Fate.inHand (.session n .writer))].filterMap sentOf = [] := rfl
    rw [hinHand, List.append_nil]
    cases hsent : sentOf (m, (c.settles m a).getD (.inHand (.session n .writer))) with
    | none => rw [List.filterMap_cons_none hsent]; rfl
    | some e => rw [List.filterMap_cons_some hsent]; rfl

theorem InOrder.call (h : InOrder past q) (hinv : SessionInv s q)
    (hacc : Accounted s past (hands q)) (hallow : (sessionProtocol cfg t).allows (q t) c) :
    InOrder (.call t c a s :: past)
      (Function.update q t ((sessionProtocol cfg t).next (q t) c a)) := by
  cases hhand : (q t).2 with
  | none => exact h.call_none hinv hacc hallow hhand
  | some p => exact h.call_hand hinv hallow hhand

theorem InOrder.outer {v : Outer} (h : InOrder past q) : InOrder (.env v s :: past) q where
  last := h.last
  sent := by
    rw [sentEvents, System.collectedCalls_env]
    exact h.sent

/-- What was sent are the first components of some of the pairs. -/
theorem filterMap_sentOf_sublist (l : List (Outbound × Fate)) :
    (l.filterMap sentOf).Sublist (l.map Prod.fst) := by
  induction l with
  | nil => exact .refl _
  | cons p l ih =>
    cases hp : sentOf p with
    | none =>
      rw [List.filterMap_cons_none hp]
      exact ih.cons p.1
    | some m =>
      obtain ⟨-, hm⟩ := Option.ite_none_right_eq_some.mp hp
      cases hm
      rw [List.filterMap_cons_some hp]
      exact ih.cons_cons p.1

end

/-- The proof outline: the events are accounted for, and they are sent in order. -/
def orderOutline (cfg : ManagerConfig) :
    System.Outline (managerSystem cfg).recorded (sessionProtocol cfg) :=
  ((sessionOutline cfg).trace Stage.init fun _ _ => rfl).also
    (fun s q => Accounted s.state s.history (hands q) ∧ InOrder s.history q)
    (by
      rintro t ch s q e a s' ⟨rfl, htraced⟩ ⟨hacc, horder⟩ hallow hexec
      obtain ⟨s₁, hcall, rfl⟩ := System.recorded_exec_iff.mp hexec
      refine ⟨?_, horder.call htraced.inv hacc hallow⟩
      rw [hands_update]
      exact hacc.call hallow.1 hcall)
    (by
      rintro v s q s' - ⟨hacc, horder⟩ hstep
      obtain ⟨s₁, houter, rfl⟩ := System.recorded_env_iff.mp hstep
      exact ⟨hacc.outer houter, horder.outer⟩)
    fun _ _ => rfl

theorem orderOutline_new (cfg : ManagerConfig) (table : Buffer.Table) :
    (orderOutline cfg).inv ⟨World.new table, []⟩ Stage.init := by
  refine ⟨⟨rfl, sessionInv_new table⟩, ⟨rfl, fun _ _ hmem => absurd hmem List.not_mem_nil⟩, ?_, rfl⟩
  rintro t n m hhand
  cases t <;> cases hhand

/-- **The events are written in the order in which they were pushed.**  In every state of every run,
the messages that the writers of all sessions have written without an error, heartbeats apart, are
some of the events that `Push` has accepted, in the same order: none was written before one that was
pushed earlier, and none was written twice. -/
theorem events_in_order (cfg : ManagerConfig) (table : Buffer.Table) (c : RecordedConfig)
    (hreach : (managerSystem cfg).recorded.Reach
      ((managerSystem cfg).recorded.start ⟨World.new table, []⟩ entry) c) :
    (sentEvents c.state.history).Sublist (accepted c.state.history) := by
  obtain ⟨q, ⟨-, hacc, horder⟩, -⟩ := (orderOutline cfg).reach
    ((orderOutline cfg).holds_start (orderOutline_new cfg table) stageHead_entry) hreach
  rw [horder.sent, hacc.order]
  exact (filterMap_sentOf_sublist _).trans (List.sublist_append_left _ _)

/-- The first event was lost with the first session, and the second one was written in the second
session. -/
theorem events_in_order_second :
    ∃ c, (managerSystem sampleConfig).recorded.Reach
        ((managerSystem sampleConfig).recorded.start ⟨World.new .empty, []⟩ entry) c ∧
      accepted c.state.history = [sampleEvent, secondEvent] ∧
        sentEvents c.state.history = [secondEvent] ∧
          (sentEvents c.state.history).Sublist (accepted c.state.history) := by
  have hplay : (playManager twoSessions).map (fun c =>
      (accepted c.state.history, sentEvents c.state.history)) =
        some ([sampleEvent, secondEvent], [secondEvent]) := by
    decide +kernel
  obtain ⟨c, hc, hreport⟩ := Option.map_eq_some_iff.mp hplay
  have hreach := System.reach_of_play hc
  exact ⟨c, hreach, congrArg Prod.fst hreport, congrArg Prod.snd hreport,
    events_in_order sampleConfig .empty c hreach⟩

/-! ### `HELLO` comes first -/

/-- The row was pending in the buffer when a goroutine asked for the pending rows. -/
def WasPending (past : History) (row : Buffer.SMSRecord) : Prop :=
  ∃ t rows s, .call t .pendingRows (some rows : Option (List Buffer.SMSRecord)) s ∈ past ∧
    row ∈ Buffer.pendingRows s.table

/-- The frame is the `SMS_RECEIVED` of such a row: it has the gateway's id, the id of the row and
its message. -/
def RowFrame (cfg : ManagerConfig) (past : History) (f : Frame) : Prop :=
  ∃ e row, f = .text (.event (.smsReceived e)) ∧ WasPending past row ∧
    e.notice = rowNotice cfg row

/-- The frames after the `HELLO`: the writer's own, the rows of the buffer, and the events that were
pushed. -/
def Traffic (cfg : ManagerConfig) (past : History) (f : Frame) : Prop :=
  f.routine ∨ RowFrame cfg past f ∨ ∃ m ∈ accepted past, f = .text m

/-- A connection on which nothing was written, or the `HELLO` and then other frames. -/
def Greeting (cfg : ManagerConfig) (past : History) (frames : List Frame) : Prop :=
  frames = [] ∨ ∃ f rest, frames = f :: rest ∧ cfg.IsHello f ∧ ∀ f ∈ rest, Traffic cfg past f

/-- Goroutines other than the writers pass on rows only. -/
def RowsOnly (cfg : ManagerConfig) (past : History) (q : Thread → Carried) : Prop :=
  ∀ t, (∀ n, t ≠ .session n .writer) → ∀ notice ∈ (q t).notices,
    ∃ row, WasPending past row ∧ notice = rowNotice cfg row

/-- `Run` writes to a connection before it starts the goroutines of the session, and nobody writes
to a connection that `Run` has not got to. -/
structure HelloInv (cfg : ManagerConfig) (s : World) (past : History) (q : Thread → Station) :
    Prop where
  fresh : ∀ n, s.frames n ≠ [] → (q .run).1.begun n
  greeted : ∀ n, (q .run).1 = .greeted n → s.frames n ≠ []
  spawned : ∀ n role, s.spawned n role → s.frames n ≠ []
  first : ∀ n, Greeting cfg past (s.frames n)

section

variable {cfg : ManagerConfig} {s s' : World} {past : History} {q : Thread → Station}
  {t : Thread} {ms : ℤ} {c : Call} {a : c.Ans}

theorem WasPending.cons {x : System.Occurrence Thread World Call Call.Ans Outer}
    {row : Buffer.SMSRecord} (h : WasPending past row) : WasPending (x :: past) row := by
  obtain ⟨t, rows, s, hmem, hrow⟩ := h
  exact ⟨t, rows, s, List.mem_cons_of_mem _ hmem, hrow⟩

theorem Greeting.cons {x : System.Occurrence Thread World Call Call.Ans Outer}
    {frames : List Frame} (h : Greeting cfg past frames) : Greeting cfg (x :: past) frames := by
  rcases h with hnil | ⟨f, rest, hframes, hhello, hrest⟩
  · exact .inl hnil
  · refine .inr ⟨f, rest, hframes, hhello, fun f hf => ?_⟩
    rcases hrest f hf with hroutine | ⟨e, row, he, hrow, hnotice⟩ | ⟨m, hm, rfl⟩
    · exact .inl hroutine
    · exact .inr (.inl ⟨e, row, he, hrow.cons, hnotice⟩)
    · exact .inr (.inr ⟨m, List.mem_append_left _ hm, rfl⟩)

/-- More frames follow the `HELLO`. -/
theorem Greeting.snoc {frames : List Frame} (h : Greeting cfg past frames) (hne : frames ≠ [])
    {f : Frame} (hf : Traffic cfg past f) : Greeting cfg past (frames ++ [f]) := by
  rcases h with hnil | ⟨g, rest, rfl, hhello, hrest⟩
  · exact absurd hnil hne
  · refine .inr ⟨g, rest ++ [f], rfl, hhello, fun f' hf' => ?_⟩
    rcases List.mem_append.mp hf' with hf' | hf'
    · exact hrest f' hf'
    · rwa [List.mem_singleton.mp hf']

theorem frames_of_same (h : s'.written = s.written) (n : ℕ) : s'.frames n = s.frames n := by
  rw [World.frames, World.frames, h]

/-- A frame goes to the end of its connection. -/
theorem frames_of_write {n : ℕ} {f : Frame} (h : s'.written = s.written ++ [(n, f)]) (k : ℕ) :
    s'.frames k = s.frames k ++ if k = n then [f] else [] := by
  rw [World.frames, World.frames, h, List.filter_append, List.map_append]
  by_cases hk : n = k
  · subst hk
    simp
  · simp [hk, Ne.symm hk]

/-- An `SMS_RECEIVED` of a goroutine that is no writer is that of a row. -/
theorem rowFrame_of_smsReceived {k : Thread → Carried} {n : ℕ} {f : Frame}
    (hrows : RowsOnly cfg past k) (ht : ∀ n, t ≠ .session n .writer)
    (hcarry : (carryProtocol cfg).allows (k t) (.writeMessage n f)) (hf : f.smsReceived) :
    RowFrame cfg past f := by
  unfold Frame.smsReceived at hf
  split at hf
  · obtain ⟨row, hrow, hnotice⟩ := hrows t ht _ (hcarry (List.mem_singleton_self _))
    exact ⟨_, row, rfl, hrow, hnotice⟩
  · cases hf

/-- What a goroutine of a session writes may follow the `HELLO`. -/
theorem traffic_of_mayFrame {carried : Thread → Carried} {k n : ℕ} {role : Role} {f : Frame}
    (horder : InOrder past q) (hacc : Accounted s past (hands q))
    (hrows : RowsOnly cfg past carried)
    (hallow : (sessionProtocol cfg (.session k role)).allows (q (.session k role))
      (.writeMessage n f))
    (hcarry : (carryProtocol cfg).allows (carried (.session k role)) (.writeMessage n f)) :
    Traffic cfg past f := by
  have hmay := hallow.2
  cases role with
  | flushOnConnect | periodicFlush =>
    refine .inr (.inl (rowFrame_of_smsReceived hrows ?_ hcarry hmay.2.2))
    rintro m ⟨⟩
  | reader | purge => exact hmay.elim
  | writer =>
    cases hhand : (q (.session k .writer)).2 with
    | none => exact .inl (hmay.2.2 hhand)
    | some p =>
      obtain ⟨n', m⟩ := p
      have hwrites : Call.Writes n' m (.writeMessage n f) := by
        have houtbox := hallow.1
        rwa [hhand] at houtbox
      obtain ⟨earlier, hfates, -⟩ := horder.last _ n' m hhand
      refine .inr (.inr ⟨m, ?_, hwrites.2⟩)
      rw [hacc.order, hfates]
      simp

/-- Nothing was written and nobody was started, and `Run` has not gone back. -/
theorem HelloInv.of_same (h : HelloInv cfg s past q) {q' : Thread → Station}
    (hspawned : s'.spawned = s.spawned) (hwritten : s'.written = s.written)
    (hbegun : ∀ n, (q .run).1.begun n → (q' .run).1.begun n)
    (hgreeted : ∀ n, (q' .run).1 = .greeted n → (q .run).1 = .greeted n) :
    HelloInv cfg s' past q' := by
  constructor
  · intro n hne
    rw [frames_of_same hwritten] at hne
    exact hbegun n (h.fresh n hne)
  · intro n hn
    rw [frames_of_same hwritten]
    exact h.greeted n (hgreeted n hn)
  · intro n role hn
    rw [hspawned] at hn
    rw [frames_of_same hwritten]
    exact h.spawned n role hn
  · intro n
    rw [frames_of_same hwritten]
    exact h.first n

/-- `Run` writes the `HELLO`. -/
theorem HelloInv.greets (h : HelloInv cfg s past q) {n : ℕ} {f : Frame} {p : Station}
    (hspawned : s'.spawned = s.spawned) (hwritten : s'.written = s.written ++ [(n, f)])
    (hdialing : (q .run).1 = .dialing n) (hhello : cfg.IsHello f) (hp : p.1 = .greeted n) :
    HelloInv cfg s' past (Function.update q .run p) := by
  have hfresh : s.frames n = [] := by
    by_contra hne
    have hbegun := h.fresh n hne
    rw [hdialing] at hbegun
    exact Nat.lt_irrefl n hbegun
  have hself : s'.frames n = [f] := by
    rw [frames_of_write hwritten, hfresh, if_pos rfl]
    rfl
  have hother : ∀ k, k ≠ n → s'.frames k = s.frames k := by
    intro k hk
    rw [frames_of_write hwritten, if_neg hk, List.append_nil]
  constructor
  · intro k hne
    rw [Function.update_self, hp]
    by_cases hk : k = n
    · exact Nat.le_of_eq hk
    · rw [hother k hk] at hne
      have hbegun := h.fresh k hne
      rw [hdialing] at hbegun
      exact Nat.le_of_lt hbegun
  · intro k hk
    rw [Function.update_self, hp] at hk
    cases hk
    rw [hself]
    exact List.cons_ne_nil f []
  · intro k role hk
    rw [hspawned] at hk
    have hne := h.spawned k role hk
    rwa [hother k fun heq => hne (heq ▸ hfresh)]
  · intro k
    by_cases hk : k = n
    · subst hk
      rw [hself]
      exact .inr ⟨f, [], rfl, hhello, fun _ hmem => absurd hmem List.not_mem_nil⟩
    · rw [hother k hk]
      exact h.first k

/-- A goroutine of a session writes a frame. -/
theorem HelloInv.follows (h : HelloInv cfg s past q) {n : ℕ} {f : Frame} {q' : Thread → Station}
    (hspawned : s'.spawned = s.spawned) (hwritten : s'.written = s.written ++ [(n, f)])
    (hne : s.frames n ≠ []) (htraffic : Traffic cfg past f) (hrun : q' .run = q .run) :
    HelloInv cfg s' past q' := by
  have hmore : ∀ k, s.frames k ≠ [] → s'.frames k ≠ [] := by
    intro k hk
    rw [frames_of_write hwritten]
    exact List.append_ne_nil_of_left_ne_nil hk _
  constructor
  · intro k hk
    rw [hrun]
    by_cases hkn : k = n
    · subst hkn
      exact h.fresh k hne
    · rw [frames_of_write hwritten, if_neg hkn, List.append_nil] at hk
      exact h.fresh k hk
  · intro k hk
    rw [hrun] at hk
    exact hmore k (h.greeted k hk)
  · intro k role hk
    rw [hspawned] at hk
    exact hmore k (h.spawned k role hk)
  · intro k
    rw [frames_of_write hwritten]
    by_cases hkn : k = n
    · subst hkn
      rw [if_pos rfl]
      exact (h.first k).snoc hne htraffic
    · rw [if_neg hkn, List.append_nil]
      exact h.first k

theorem HelloInv.writes {carried : Thread → Carried} (h : HelloInv cfg s past q)
    (hinv : SessionInv s q) (horder : InOrder past q) (hacc : Accounted s past (hands q))
    (hrows : RowsOnly cfg past carried) {n : ℕ} {f : Frame}
    (hallow : (sessionProtocol cfg t).allows (q t) (.writeMessage n f))
    (hcarry : (carryProtocol cfg).allows (carried t) (.writeMessage n f))
    (hexec : s.exec t ms (.writeMessage n f) true = some s') :
    HelloInv cfg s' past
      (Function.update q t ((sessionProtocol cfg t).next (q t) (.writeMessage n f) true)) := by
  obtain ⟨hs, hwritten⟩ := onward_writeMessage hexec
  have hmay := hallow.2
  cases t with
  | run =>
    have hdialing : (q .run).1 = .dialing n := hmay.1
    refine h.greets hs.spawned hwritten hdialing hmay.2 ?_
    simp only [sessionProtocol, Stage.next, hdialing, Stage.greet, if_true]
  | session k role =>
    obtain ⟨rfl, hlive⟩ : k = n ∧ (q (.session k role)).1.live := by
      cases role with
      | writer | flushOnConnect | periodicFlush => exact ⟨hmay.1, hmay.2.1⟩
      | _ => exact hmay.elim
    have hspawned : s.spawned k role := by
      refine hinv.started k role fun heq => ?_
      rw [heq] at hlive
      cases hlive
    refine h.follows hs.spawned hwritten (h.spawned k role hspawned)
      (traffic_of_mayFrame horder hacc hrows hallow hcarry) update_session

/-- `Run` starts a goroutine of the session that it has greeted. -/
theorem HelloInv.go (h : HelloInv cfg s past q) {n : ℕ} {role : Role} {u : Unit} {p : Station}
    (hgreeted : (q .run).1 = .greeted n) (hexec : s.exec .run ms (.go n role) u = some s')
    (hp : p.1 = (q .run).1) : HelloInv cfg s' past (Function.update q .run p) := by
  cases hexec
  constructor
  · intro k hk
    rw [Function.update_self, hp]
    exact h.fresh k hk
  · intro k hk
    rw [Function.update_self, hp] at hk
    exact h.greeted k hk
  · intro k r hk
    by_cases hkn : k = n
    · subst hkn
      exact h.greeted k hgreeted
    · refine h.spawned k r ?_
      simpa only [Function.update_of_ne hkn] using hk
  · exact h.first

/-- The call is a `WriteMessage`. -/
def Call.isWrite : Call → Bool
  | writeMessage _ _ => true
  | _ => false

/-- Only a `HELLO` makes `Run` greeted. -/
theorem greeted_next {stage : Stage} {n : ℕ} (hc : c.isWrite = false)
    (h : stage.next c a = .greeted n) : stage = .greeted n := by
  have hnotice : stage.notice = .greeted n → stage = .greeted n := by
    cases stage with
    | running => rintro ⟨⟩
    | _ => exact id
  cases c with
  | writeMessage m f => cases hc
  | drainAcks =>
    cases stage with
    | waited k => cases h
    | _ => exact h
  | select m =>
    cases a with
    | ctxDone => exact hnotice h
    | event e => exact h
  | pollSession m =>
    cases a with
    | true => exact hnotice h
    | false => exact h
  | cancel m => exact hnotice h
  | wgWait | closeConn | started | wgDone => cases h
  | _ => exact h

/-- A call that starts no goroutine and writes nothing. -/
theorem HelloInv.stays (h : HelloInv cfg s past q) (hspawned : s'.spawned = s.spawned)
    (hwritten : s'.written = s.written) (hallow : (sessionProtocol cfg t).allows (q t) c)
    (hgreeted : ∀ n, (q t).1.next c a = .greeted n → (q t).1 = .greeted n) :
    HelloInv cfg s' past (Function.update q t ((sessionProtocol cfg t).next (q t) c a)) := by
  refine h.of_same hspawned hwritten (fun n hn => ?_) fun n hn => ?_
  · by_cases ht : t = .run
    · subst ht
      rw [Function.update_self]
      exact begun_next hallow a hn
    · rwa [Function.update_of_ne (Ne.symm ht)]
  · by_cases ht : t = .run
    · subst ht
      rw [Function.update_self] at hn
      exact hgreeted n hn
    · rwa [Function.update_of_ne (Ne.symm ht)] at hn

theorem HelloInv.cons (h : HelloInv cfg s past q)
    {x : System.Occurrence Thread World Call Call.Ans Outer} : HelloInv cfg s (x :: past) q :=
  { h with first := fun n => (h.first n).cons }

theorem HelloInv.call {carried : Thread → Carried} (h : HelloInv cfg s past q)
    (hinv : SessionInv s q) (horder : InOrder past q) (hacc : Accounted s past (hands q))
    (hrows : RowsOnly cfg past carried) (hallow : (sessionProtocol cfg t).allows (q t) c)
    (hcarry : (carryProtocol cfg).allows (carried t) c) (hexec : s.exec t ms c a = some s') :
    HelloInv cfg s' (.call t c a s :: past)
      (Function.update q t ((sessionProtocol cfg t).next (q t) c a)) := by
  refine HelloInv.cons ?_
  cases c with
  | go n role =>
    obtain ⟨rfl, hgreeted⟩ := hallow.2
    exact h.go hgreeted hexec rfl
  | writeMessage n f =>
    cases a with
    | true => exact h.writes hinv horder hacc hrows hallow hcarry hexec
    | false =>
      obtain ⟨hs, hwritten⟩ := onward_writeMessage hexec
      exact h.stays hs.spawned hwritten hallow fun _ => id
  | cancel n =>
    cases hexec
    have hsettle := sameSessions_settle t { s with cancelled := Function.update s.cancelled n true }
    exact h.stays hsettle.spawned hsettle.written hallow fun _ => greeted_next rfl
  | wgDone n =>
    cases hexec
    exact h.stays rfl rfl hallow fun _ => greeted_next rfl
  | _ =>
    have hsame := sameSessions_of_exec rfl hexec
    exact h.stays hsame.spawned hsame.written hallow fun _ => greeted_next rfl

theorem RowsOnly.cons {carried : Thread → Carried} (h : RowsOnly cfg past carried)
    {x : System.Occurrence Thread World Call Call.Ans Outer} :
    RowsOnly cfg (x :: past) carried := by
  intro t ht notice hnotice
  obtain ⟨row, hrow, heq⟩ := h t ht notice hnotice
  exact ⟨row, hrow.cons, heq⟩

/-- What a goroutine that is no writer comes to pass on are rows that it has just read. -/
theorem RowsOnly.next {k : Carried}
    (h : ∀ notice ∈ k.notices, ∃ row, WasPending past row ∧ notice = rowNotice cfg row)
    (hselect : ∀ n, c ≠ .select n) (hexec : s.exec t ms c a = some s') :
    ∀ notice ∈ ((carryProtocol cfg).next k c a).notices,
      ∃ row, WasPending (.call t c a s :: past) row ∧ notice = rowNotice cfg row := by
  have hold : ∀ notice ∈ k.notices,
      ∃ row, WasPending (.call t c a s :: past) row ∧ notice = rowNotice cfg row := by
    intro notice hnotice
    obtain ⟨row, hrow, heq⟩ := h notice hnotice
    exact ⟨row, hrow.cons, heq⟩
  cases c with
  | pendingRows =>
    cases a with
    | none => exact hold
    | some rows =>
      intro notice hnotice
      obtain ⟨row, hrow, rfl⟩ := List.mem_map.mp hnotice
      rw [eq_pendingRows_of_exec hexec] at hrow
      exact ⟨row, ⟨t, rows, s, List.mem_cons_self, hrow⟩, rfl⟩
  | select n => exact absurd rfl (hselect n)
  | readMessage n =>
    cases a with
    | none => exact hold
    | some m => cases m <;> exact hold
  | _ => exact hold

theorem RowsOnly.call {carried : Thread → Carried} (h : RowsOnly cfg past carried) {p : Station}
    (hallow : (sessionProtocol cfg t).allows p c) (hexec : s.exec t ms c a = some s') :
    RowsOnly cfg (.call t c a s :: past)
      (Function.update carried t ((carryProtocol cfg).next (carried t) c a)) := by
  intro u hu
  by_cases hut : u = t
  · subst hut
    rw [Function.update_self]
    refine RowsOnly.next (h u hu) ?_ hexec
    -- only a writer selects
    rintro n rfl
    exact hu n hallow.2.1
  · rw [Function.update_of_ne hut]
    exact h.cons u hu

end

/-- The proof outline: the stages of the goroutines, and what they pass on. -/
def helloOutline (cfg : ManagerConfig) :
    System.Outline (managerSystem cfg).recorded
      fun t => (sessionProtocol cfg t).prod (carryProtocol cfg) :=
  ((orderOutline cfg).prod (fun _ => carryProtocol cfg) (fun _ l q => block_obeys_carry l q)
    fun _ _ => rfl).also
    (fun s q => HelloInv cfg s.state s.history (fun t => (q t).1) ∧
      RowsOnly cfg s.history fun t => (q t).2)
    (by
      rintro t ch s q e a s' ⟨⟨hpositions, htraced⟩, hacc, horder⟩ ⟨hhello, hrows⟩ hallow hexec
      obtain ⟨s₁, hcall, rfl⟩ := System.recorded_exec_iff.mp hexec
      rw [System.Outline.fst_update, System.Outline.snd_update]
      have hinv := htraced.inv
      rw [← hpositions] at hinv
      exact ⟨hhello.call hinv horder hacc hrows hallow.1 hallow.2 hcall,
        hrows.call hallow.1 hcall⟩)
    (by
      rintro v s q s' - ⟨hhello, hrows⟩ hstep
      obtain ⟨s₁, houter, rfl⟩ := System.recorded_env_iff.mp hstep
      obtain ⟨hs, hwritten⟩ := onward_outer houter
      exact ⟨(hhello.of_same hs.spawned hwritten (fun _ => id) fun _ => id).cons, hrows.cons⟩)
    fun _ _ => rfl

/-- **`HELLO` comes first.**  In every state of every run, what was written to a connection is
nothing, or a `HELLO` with the gateway's id, its version and the version of the protocol, and after
it only pings, heartbeats, the `SMS_RECEIVED` of rows that were pending in the buffer when they were
read, and events that somebody has pushed. -/
theorem hello_first (cfg : ManagerConfig) (table : Buffer.Table) (c : RecordedConfig)
    (hreach : (managerSystem cfg).recorded.Reach
      ((managerSystem cfg).recorded.start ⟨World.new table, []⟩ entry) c) (n : ℕ) :
    Greeting cfg c.state.history (c.state.state.frames n) := by
  have hnew : (helloOutline cfg).inv ⟨World.new table, []⟩ fun t => (Stage.init t, ⟨none, []⟩) := by
    refine ⟨orderOutline_new cfg table,
      ⟨fun n hne => absurd rfl hne, ?_, ?_, fun _ => .inl rfl⟩, ?_⟩
    · rintro n ⟨⟩
    · rintro n role ⟨⟩
    · rintro t - notice ⟨⟩
  obtain ⟨q, ⟨-, hhello, -⟩, -⟩ := (helloOutline cfg).reach
    ((helloOutline cfg).holds_start hnew stageHead_entry) hreach
  exact hhello.first n

/-- The second connection: `HELLO`, and the second event. -/
theorem hello_first_second :
    ∃ c, (managerSystem sampleConfig).recorded.Reach
        ((managerSystem sampleConfig).recorded.start ⟨World.new .empty, []⟩ entry) c ∧
      (c.state.state.frames 1).drop 1 = [.text secondEvent] ∧
        Greeting sampleConfig c.state.history (c.state.state.frames 1) := by
  have hplay : (playManager twoSessions).map (fun c => (c.state.state.frames 1).drop 1) =
      some [.text secondEvent] := by
    decide +kernel
  obtain ⟨c, hc, hreport⟩ := Option.map_eq_some_iff.mp hplay
  have hreach := System.reach_of_play hc
  exact ⟨c, hreach, hreport, hello_first sampleConfig .empty c hreach 1⟩

end SmsGate.Tunnel
