import SmsGate.Tunnel.Equiv.Stages

/-!
# One session after the other

`Run` waits for the writer and the reader of a session before it dials again, and they end only when
their session is done.

* `SessionInv`: the writers and readers of two sessions never run at the same time
  (`SessionInv.eq_of_running`), and a session whose writer or reader has ended is done;
* `sessions_in_turn`: over all runs, no goroutine of a later session does anything before the writer
  and the reader of the earlier ones have ended.
-/

namespace SmsGate.Tunnel

open Go

/-! ### What the calls do to the sessions -/

/-- The calls that start and end a session, and those that write to its connection. -/
def Call.onSessions : Call → Bool
  | cancel _ | go _ _ | wgDone _ | writeMessage _ _ => true
  | _ => false

/-- Two worlds do not differ in the sessions and the frames that were written. -/
structure SameSessions (s s' : World) : Prop where
  ctxDone : s'.ctxDone = s.ctxDone
  cancelled : s'.cancelled = s.cancelled
  spawned : s'.spawned = s.spawned
  wgDone : s'.wgDone = s.wgDone
  written : s'.written = s.written

section

variable {s s' : World} {t : Thread} {ms : ℤ} {c : Call} {a : c.Ans}

theorem sameSessions_refl (s : World) : SameSessions s s := ⟨rfl, rfl, rfl, rfl, rfl⟩

theorem sameSessions_settle (t : Thread) (s : World) : SameSessions s (s.settle t) := by
  obtain ⟨busy, hbusy⟩ := exists_settle t s
  rw [hbusy]
  exact ⟨rfl, rfl, rfl, rfl, rfl⟩

/-- The other calls leave them alone. -/
theorem sameSessions_of_exec (hc : c.onSessions = false) (hexec : s.exec t ms c a = some s') :
    SameSessions s s' := by
  have hleaves : c.Leaves fun s => (s.ctxDone, s.cancelled, s.spawned, s.wgDone, s.written) := by
    cases c with
    | cancel | go | wgDone | writeMessage => cases hc
    | _ => simp [Call.Leaves]
  have hsame := view_of_exec hleaves hexec
  simp only [Prod.mk.injEq] at hsame
  exact ⟨hsame.1, hsame.2.1, hsame.2.2.1, hsame.2.2.2.1, hsame.2.2.2.2⟩

/-- No goroutine is started or ends, and a session that is done stays so. -/
structure Onward (s s' : World) : Prop where
  spawned : s'.spawned = s.spawned
  wgDone : s'.wgDone = s.wgDone
  done : ∀ n, s.sessionDone n → s'.sessionDone n

theorem SameSessions.onward (h : SameSessions s s') : Onward s s' where
  spawned := h.spawned
  wgDone := h.wgDone
  done n hdone := by
    rw [World.sessionDone, h.ctxDone, h.cancelled]
    exact hdone

theorem onward_cancel {n : ℕ} {u : Unit} (hexec : s.exec t ms (.cancel n) u = some s') :
    Onward s s' ∧ s'.sessionDone n := by
  cases hexec
  have hsettle := sameSessions_settle t { s with cancelled := Function.update s.cancelled n true }
  have hdone : ∀ m, (s.ctxDone || Function.update s.cancelled n true m) = true →
      (World.settle t { s with cancelled := Function.update s.cancelled n true }).sessionDone m :=
    fun m hm => by rwa [World.sessionDone, hsettle.ctxDone, hsettle.cancelled]
  refine ⟨⟨hsettle.spawned, hsettle.wgDone, fun m hm => hdone m ?_⟩, hdone n ?_⟩
  · by_cases hmn : m = n
    · subst hmn
      rw [Function.update_self, Bool.or_true]
    · rwa [Function.update_of_ne hmn]
  · rw [Function.update_self, Bool.or_true]

/-- The frames that were written to a connection. -/
def World.frames (s : World) (n : ℕ) : List Frame :=
  (s.written.filter (·.1 = n)).map Prod.snd

theorem onward_writeMessage {n : ℕ} {f : Frame} {ok : Bool}
    (hexec : s.exec t ms (.writeMessage n f) ok = some s') :
    Onward s s' ∧ s'.written = if ok then s.written ++ [(n, f)] else s.written := by
  cases hexec
  cases ok with
  | false => exact ⟨(sameSessions_settle t s).onward, (sameSessions_settle t s).written⟩
  | true =>
    have hsettle := sameSessions_settle t { s with written := s.written ++ [(n, f)] }
    exact ⟨⟨hsettle.spawned, hsettle.wgDone, hsettle.onward.done⟩, hsettle.written⟩

theorem onward_outer {v : Outer} (hstep : v.step s = some s') :
    Onward s s' ∧ s'.written = s.written := by
  cases v with
  | push m =>
    cases hstep
    split_ifs <;> exact ⟨⟨rfl, rfl, fun _ => id⟩, rfl⟩
  | cancel =>
    cases hstep
    exact ⟨⟨rfl, rfl, fun _ _ => rfl⟩, rfl⟩
  | _ =>
    cases hstep
    exact ⟨⟨rfl, rfl, fun _ => id⟩, rfl⟩

end

/-! ### One session after the other -/

namespace Stage

/-- `Run` has got to the goroutines of session `m`, or is past them. -/
def begun (m : ℕ) : Stage → Prop
  | dialing n => m < n
  | greeted n | waited n | drained n => m ≤ n
  | _ => False

/-- `Run` is past its wait for the writer and the reader of session `m`. -/
def past (m : ℕ) : Stage → Prop
  | dialing n | greeted n => m < n
  | waited n | drained n => m ≤ n
  | _ => False

/-- The goroutine knows that its session is done. -/
def knows : Stage → Bool
  | seen | ended => true
  | _ => false

/-- Of two sessions that have begun, `Run` is past the first. -/
theorem past_of_begun {m n : ℕ} {q : Stage} (hmn : m < n) (h : q.begun n) : q.past m := by
  cases q with
  | dialing k => exact Nat.lt_trans hmn h
  | greeted k => exact Nat.lt_of_lt_of_le hmn h
  | waited k | drained k => exact Nat.le_of_lt (Nat.lt_of_lt_of_le hmn h)
  | _ => exact h

end Stage

/-- Only a running writer has an event in hand. -/
def HandOk (t : Thread) (q : Station) : Prop :=
  ∀ n m, q.2 = some (n, m) → t = .session n .writer ∧ q.1 = .running

/-- The goroutines of the sessions, and how far `Run` is. -/
structure SessionInv (s : World) (q : Thread → Station) : Prop where
  begun : ∀ n role, s.spawned n role → (q .run).1.begun n
  started : ∀ n role, (q (.session n role)).1 ≠ .before → s.spawned n role
  done : ∀ n role, (q (.session n role)).1.knows → s.sessionDone n
  count : ∀ n, s.wgDone n = (decide ((q (.session n .writer)).1 = .ended)).toNat +
    (decide ((q (.session n .reader)).1 = .ended)).toNat
  past : ∀ n role, role.awaited → (q .run).1.past n → s.spawned n role →
    (q (.session n role)).1 = .ended
  hand : ∀ t, HandOk t (q t)

section

variable {cfg : ManagerConfig} {s s' : World} {q : Thread → Station} {t : Thread} {ms : ℤ}

theorem handOk_next {q : Station} {c : Call} (hq : HandOk t q)
    (hallow : (sessionProtocol cfg t).allows q c) (a : c.Ans) :
    HandOk t ((sessionProtocol cfg t).next q c a) := by
  obtain ⟨q, hand⟩ := q
  intro n m hnext
  cases hand with
  | none =>
    cases c with
    | select k =>
      cases a with
      | ctxDone => cases hnext
      | event e =>
        cases e with
        | outbox m' =>
          cases hnext
          exact hallow.2
        | ping | heartbeat => cases hnext
    | _ => cases hnext
  | some p =>
    obtain ⟨k, m'⟩ := p
    obtain ⟨ht, hrunning⟩ := hq k m' rfl
    obtain rfl : q = .running := hrunning
    obtain ⟨-, hkm⟩ := Option.ite_none_left_eq_some.mp hnext
    cases hkm
    refine ⟨ht, ?_⟩
    -- a write settles the event, and the other calls of `writeJSON` leave the stage alone
    cases c with
    | writeMessage k' f =>
      cases a <;> rfl
    | marshal | writeTime | setWriteDeadline => rfl
    | _ => exact hallow.1.elim

/-- `Run` does not go back. -/
theorem begun_next {q : Station} {c : Call} (hallow : (sessionProtocol cfg .run).allows q c)
    (a : c.Ans) {m : ℕ} (hm : q.1.begun m) : ((sessionProtocol cfg .run).next q c a).1.begun m := by
  obtain ⟨q, hand⟩ := q
  have hmay := hallow.2
  cases c with
  | writeMessage n f =>
    obtain rfl : q = .dialing n := hmay.1
    cases a with
    | false => exact hm
    | true => exact Nat.le_of_lt hm
  | wgWait n =>
    obtain rfl : q = .greeted n := hmay.2
    exact hm
  | drainAcks =>
    obtain ⟨-, n, hwaited⟩ := hmay
    obtain rfl : q = .waited n := hwaited
    exact hm
  | closeConn n =>
    obtain ⟨-, hstage⟩ := hmay
    rcases hstage with hstage | hstage
    · obtain rfl : q = .dialing n := hstage
      exact Nat.lt_succ_of_lt hm
    · obtain rfl : q = .drained n := hstage
      exact Nat.lt_succ_of_le hm
  | started n role | select n => cases hmay.1
  | wgDone n | pollSession n =>
    obtain ⟨role, hrun, -⟩ := hmay
    cases hrun
  | cancel n =>
    rcases hmay with ⟨role, hrun, -⟩ | ⟨-, hdrained⟩
    · cases hrun
    · obtain rfl : q = .drained n := hdrained
      exact hm
  | _ => exact hm

/-- A writer or a reader that has not ended is one of the latest session: `Run` is not past it. -/
theorem SessionInv.not_past (h : SessionInv s q) {n : ℕ} {role : Role} (hrole : role.awaited)
    (hactive : (q (.session n role)).1.active) : ¬ (q .run).1.past n := by
  intro hpast
  have hne : (q (.session n role)).1 ≠ .before := by
    intro heq
    rw [heq] at hactive
    cases hactive
  rw [h.past n role hrole hpast (h.started n role hne)] at hactive
  cases hactive

/-- **The writers and readers of two sessions do not run at the same time.** -/
theorem SessionInv.eq_of_running (h : SessionInv s q) {m n : ℕ} {role role' : Role}
    (hrole : role.awaited) (hrole' : role'.awaited) (hm : (q (.session m role)).1.active)
    (hn : (q (.session n role')).1.active) : m = n := by
  have hstarted : ∀ k r, (q (.session k r)).1.active → (q .run).1.begun k := by
    intro k r hk
    refine h.begun k r (h.started k r fun heq => ?_)
    rw [heq] at hk
    cases hk
  rcases Nat.lt_trichotomy m n with hlt | heq | hlt
  · exact absurd (Stage.past_of_begun hlt (hstarted n role' hn)) (h.not_past hrole hm)
  · exact heq
  · exact absurd (Stage.past_of_begun hlt (hstarted m role hm)) (h.not_past hrole' hn)

theorem update_run {p : Station} (n : ℕ) (role : Role) :
    Function.update q .run p (.session n role) = q (.session n role) := by
  rw [Function.update_of_ne]
  rintro ⟨⟩

theorem update_session {n : ℕ} {role : Role} {p : Station} :
    Function.update q (.session n role) p .run = q .run := by
  rw [Function.update_of_ne]
  rintro ⟨⟩

/-- The other hands are as they were. -/
theorem SessionInv.hand_update (h : SessionInv s q) {p : Station} (hhand : HandOk t p)
    (u : Thread) : HandOk u (Function.update q t p u) := by
  by_cases hu : u = t
  · subst hu
    rwa [Function.update_self]
  · rw [Function.update_of_ne hu]
    exact h.hand u

/-- A goroutine goes on at its stage. -/
theorem SessionInv.stays (h : SessionInv s q) (hs : Onward s s') {p : Station}
    (hp : p.1 = (q t).1) (hhand : HandOk t p) : SessionInv s' (Function.update q t p) := by
  have hstage : ∀ u, (Function.update q t p u).1 = (q u).1 := by
    intro u
    by_cases hu : u = t
    · subst hu
      rwa [Function.update_self]
    · rw [Function.update_of_ne hu]
  constructor
  · intro n role hspawned
    rw [hstage]
    rw [hs.spawned] at hspawned
    exact h.begun n role hspawned
  · intro n role hne
    rw [hstage] at hne
    rw [hs.spawned]
    exact h.started n role hne
  · intro n role hknows
    rw [hstage] at hknows
    exact hs.done n (h.done n role hknows)
  · intro n
    rw [hstage, hstage, hs.wgDone]
    exact h.count n
  · intro n role hrole hpast hspawned
    rw [hstage] at hpast ⊢
    rw [hs.spawned] at hspawned
    exact h.past n role hrole hpast hspawned
  · exact h.hand_update hhand

/-- A goroutine of a session goes on to another stage, and does not end. -/
theorem SessionInv.moves (h : SessionInv s q) (hs : Onward s s') {n : ℕ} {role : Role}
    {p : Station} (hold : (q (.session n role)).1 ≠ .ended) (hnew : p.1 ≠ .ended)
    (hspawned : s.spawned n role) (hdone : p.1.knows → s'.sessionDone n)
    (hhand : HandOk (.session n role) p) :
    SessionInv s' (Function.update q (.session n role) p) := by
  have hended : ∀ k r, (Function.update q (.session n role) p (.session k r)).1 = .ended ↔
      (q (.session k r)).1 = .ended := by
    intro k r
    by_cases hu : Thread.session k r = .session n role
    · rw [hu, Function.update_self]
      exact iff_of_false hnew hold
    · rw [Function.update_of_ne hu]
  constructor
  · intro k r hk
    rw [hs.spawned] at hk
    rw [update_session]
    exact h.begun k r hk
  · intro k r hne
    rw [hs.spawned]
    by_cases hu : Thread.session k r = .session n role
    · cases hu
      exact hspawned
    · rw [Function.update_of_ne hu] at hne
      exact h.started k r hne
  · intro k r hknows
    by_cases hu : Thread.session k r = .session n role
    · cases hu
      rw [Function.update_self] at hknows
      exact hdone hknows
    · rw [Function.update_of_ne hu] at hknows
      exact hs.done k (h.done k r hknows)
  · intro k
    simp only [hended, hs.wgDone]
    exact h.count k
  · intro k r hrole hpast hk
    rw [update_session] at hpast
    rw [hs.spawned] at hk
    exact (hended k r).mpr (h.past k r hrole hpast hk)
  · exact h.hand_update hhand

/-- `Run` goes on to another stage. -/
theorem SessionInv.runs (h : SessionInv s q) (hs : Onward s s') {p : Station}
    (hbegun : ∀ m, (q .run).1.begun m → p.1.begun m)
    (hpast : ∀ m role, role.awaited → p.1.past m → s.spawned m role →
      (q (.session m role)).1 = .ended)
    (hhand : HandOk .run p) : SessionInv s' (Function.update q .run p) := by
  constructor
  · intro n role hspawned
    rw [hs.spawned] at hspawned
    rw [Function.update_self]
    exact hbegun n (h.begun n role hspawned)
  · intro n role hne
    rw [update_run] at hne
    rw [hs.spawned]
    exact h.started n role hne
  · intro n role hknows
    rw [update_run] at hknows
    exact hs.done n (h.done n role hknows)
  · intro n
    rw [update_run, update_run, hs.wgDone]
    exact h.count n
  · intro n role hrole hp hspawned
    rw [Function.update_self] at hp
    rw [hs.spawned] at hspawned
    rw [update_run]
    exact hpast n role hrole hp hspawned
  · exact h.hand_update hhand

/-- `Run` starts a goroutine. -/
theorem SessionInv.go (h : SessionInv s q) {n : ℕ} {role : Role} {u : Unit} {p : Station}
    (hgreeted : (q .run).1 = .greeted n) (hexec : s.exec .run ms (.go n role) u = some s')
    (hp : p.1 = (q .run).1) (hhand : HandOk .run p) :
    SessionInv s' (Function.update q .run p) := by
  cases hexec
  have hspawned : ∀ k r, Function.update s.spawned n (Function.update (s.spawned n) role true) k r →
      k = n ∨ s.spawned k r := by
    intro k r hk
    by_cases hkn : k = n
    · exact .inl hkn
    · rw [Function.update_of_ne hkn] at hk
      exact .inr hk
  constructor
  · intro k r hk
    rw [Function.update_self, hp]
    rcases hspawned k r hk with rfl | hk
    · rw [hgreeted]
      exact Nat.le_refl k
    · exact h.begun k r hk
  · intro k r hne
    rw [update_run] at hne
    have hk := h.started k r hne
    by_cases hkn : k = n
    · subst hkn
      by_cases hr : r = role
      · subst hr
        simp only [Function.update_self]
      · simpa only [Function.update_self, Function.update_of_ne hr] using hk
    · simpa only [Function.update_of_ne hkn] using hk
  · intro k r hknows
    rw [update_run] at hknows
    exact h.done k r hknows
  · intro k
    rw [update_run, update_run]
    exact h.count k
  · intro k r hrole hpast hk
    rw [Function.update_self, hp] at hpast
    rw [update_run]
    rcases hspawned k r hk with rfl | hk
    · rw [hgreeted] at hpast
      exact absurd hpast (Nat.lt_irrefl k)
    · exact h.past k r hrole hpast hk
  · exact h.hand_update hhand

/-- A writer or a reader ends. -/
theorem SessionInv.ends (h : SessionInv s q) {n : ℕ} {role : Role} {u : Unit} {p : Station}
    (hrole : role.awaited) (hseen : (q (.session n role)).1 = .seen)
    (hexec : s.exec (.session n role) ms (.wgDone n) u = some s') (hp : p.1 = .ended)
    (hhand : HandOk (.session n role) p) :
    SessionInv s' (Function.update q (.session n role) p) := by
  cases hexec
  constructor
  · intro k r hk
    rw [update_session]
    exact h.begun k r hk
  · intro k r hne
    by_cases hu : Thread.session k r = .session n role
    · cases hu
      refine h.started n role ?_
      rw [hseen]
      rintro ⟨⟩
    · rw [Function.update_of_ne hu] at hne
      exact h.started k r hne
  · intro k r hknows
    by_cases hu : Thread.session k r = .session n role
    · cases hu
      refine h.done n role ?_
      rw [hseen]
      rfl
    · rw [Function.update_of_ne hu] at hknows
      exact h.done k r hknows
  · intro k
    by_cases hkn : k = n
    · subst hkn
      -- one of the two has ended now
      have hcount := h.count k
      cases role with
      | writer =>
        rw [hseen] at hcount
        simpa [Function.update_of_ne, hp, Nat.add_comm] using hcount
      | reader =>
        rw [hseen] at hcount
        simpa [Function.update_of_ne, hp, Nat.add_comm] using hcount
      | _ => cases hrole
    · have hne : ∀ r, Thread.session k r ≠ .session n role := by
        rintro r ⟨⟩
        exact hkn rfl
      rw [Function.update_of_ne (hne _), Function.update_of_ne (hne _)]
      refine Eq.trans ?_ (h.count k)
      exact Function.update_of_ne hkn _ _
  · intro k r hr hpast hk
    rw [update_session] at hpast
    by_cases hu : Thread.session k r = .session n role
    · rwa [hu, Function.update_self]
    · rw [Function.update_of_ne hu]
      exact h.past k r hr hpast hk
  · exact h.hand_update hhand

/-- A goroutine of a session finds that the session is done, or not. -/
theorem SessionInv.notices (h : SessionInv s q) (hs : Onward s s') {n : ℕ} {role : Role}
    {p : Station} (hlive : (q (.session n role)).1.live) (hdone : s'.sessionDone n)
    (hp : p.1 = (q (.session n role)).1.notice) (hhand : HandOk (.session n role) p) :
    SessionInv s' (Function.update q (.session n role) p) := by
  have hspawned : s.spawned n role := by
    refine h.started n role fun heq => ?_
    rw [heq] at hlive
    cases hlive
  refine h.moves hs ?_ ?_ hspawned (fun _ => hdone) hhand
  · intro heq
    rw [heq] at hlive
    cases hlive
  · rw [hp]
    generalize (q (.session n role)).1 = stage at hlive
    cases stage with
    | running | seen => rintro ⟨⟩
    | _ => cases hlive

/-- `Run` or a goroutine writes a frame. -/
theorem SessionInv.writes (h : SessionInv s q) (hs : Onward s s') {n : ℕ} {f : Frame} {ok : Bool}
    {p : Station} (hmay : MayFrame cfg t (q t) n f)
    (hp : p.1 = if ok then (q t).1.greet else (q t).1)
    (hbegun : t = .run → ∀ m, (q .run).1.begun m → p.1.begun m) (hhand : HandOk t p) :
    SessionInv s' (Function.update q t p) := by
  cases ok with
  | false => exact h.stays hs hp hhand
  | true =>
    cases t with
    | run =>
      have hstage : (q .run).1 = .dialing n := hmay.1
      have hgreeted : p.1 = .greeted n := by
        rw [hp, hstage]
        rfl
      refine h.runs hs (hbegun rfl) (fun m role hrole hm hspawned => ?_) hhand
      rw [hgreeted] at hm
      refine h.past m role hrole ?_ hspawned
      rw [hstage]
      exact hm
    | session k role =>
      have hlive : (q (.session k role)).1.live := by
        cases role with
        | writer | flushOnConnect | periodicFlush => exact hmay.2.1
        | _ => exact hmay.elim
      refine h.stays hs (hp.trans ?_) hhand
      generalize (q (.session k role)).1 = stage at hlive
      cases stage with
      | running | seen => rfl
      | _ => cases hlive

/-- `Run` has waited: its writer and its reader have both called `wg.Done`. -/
theorem SessionInv.waits (h : SessionInv s q) {n : ℕ} {p : Station}
    (hgreeted : (q .run).1 = .greeted n) (htwo : s.wgDone n = 2) (hp : p.1 = .waited n)
    (hbegun : ∀ m, (q .run).1.begun m → p.1.begun m) (hhand : HandOk .run p) :
    SessionInv s (Function.update q .run p) := by
  have hended : (q (.session n .writer)).1 = .ended ∧ (q (.session n .reader)).1 = .ended := by
    have hcount := h.count n
    rw [htwo] at hcount
    by_cases hw : (q (.session n .writer)).1 = .ended <;>
      by_cases hr : (q (.session n .reader)).1 = .ended
    · exact ⟨hw, hr⟩
    all_goals simp [hw, hr] at hcount
  refine h.runs (sameSessions_refl s).onward hbegun (fun m role hrole hm hspawned => ?_) hhand
  rw [hp] at hm
  rcases Nat.lt_or_eq_of_le hm with hlt | rfl
  · refine h.past m role hrole ?_ hspawned
    rw [hgreeted]
    exact hlt
  · cases role with
    | writer => exact hended.1
    | reader => exact hended.2
    | _ => cases hrole

/-- `Run` closes a connection and is ready for the next one. -/
theorem SessionInv.closes (h : SessionInv s q) (hs : Onward s s') {n : ℕ} {p : Station}
    (hstage : (q .run).1 = .dialing n ∨ (q .run).1 = .drained n) (hp : p.1 = .dialing (n + 1))
    (hbegun : ∀ m, (q .run).1.begun m → p.1.begun m) (hhand : HandOk .run p) :
    SessionInv s' (Function.update q .run p) := by
  refine h.runs hs hbegun (fun m role hrole hm hspawned => ?_) hhand
  rw [hp] at hm
  refine h.past m role hrole ?_ hspawned
  rcases hstage with hstage | hstage
  -- no goroutine of this session was started
  · have hm' := h.begun m role hspawned
    rw [hstage] at hm' ⊢
    exact hm'
  · rw [hstage]
    exact Nat.le_of_lt_succ hm

theorem SessionInv.call (h : SessionInv s q) {c : Call} {a : c.Ans}
    (hallow : (sessionProtocol cfg t).allows (q t) c) (hexec : s.exec t ms c a = some s') :
    SessionInv s' (Function.update q t ((sessionProtocol cfg t).next (q t) c a)) := by
  have hhand := handOk_next (h.hand t) hallow a
  have hmay := hallow.2
  cases c with
  | writeMessage n f =>
    refine h.writes (onward_writeMessage hexec).1 hmay rfl ?_ hhand
    rintro rfl m hm
    exact begun_next hallow a hm
  | go n role =>
    obtain ⟨rfl, hgreeted⟩ := hmay
    exact h.go hgreeted hexec rfl hhand
  | wgWait n =>
    obtain ⟨rfl, hgreeted⟩ := hmay
    obtain ⟨htwo, hs⟩ := Option.ite_none_right_eq_some.mp hexec
    cases hs
    exact h.waits hgreeted htwo rfl (fun _ => begun_next hallow a) hhand
  | drainAcks =>
    obtain ⟨rfl, n, hwaited⟩ := hmay
    have hdrained : ((sessionProtocol cfg .run).next (q .run) .drainAcks a).1 = .drained n := by
      simp only [sessionProtocol, Stage.next, hwaited]
    refine h.runs (sameSessions_of_exec rfl hexec).onward (fun _ => begun_next hallow a)
      (fun m role hrole hm hspawned => ?_) hhand
    rw [hdrained] at hm
    refine h.past m role hrole ?_ hspawned
    rw [hwaited]
    exact hm
  | closeConn n =>
    obtain ⟨rfl, hstage⟩ := hmay
    exact h.closes (sameSessions_of_exec rfl hexec).onward hstage rfl (fun _ => begun_next hallow a)
      hhand
  | started n role =>
    obtain ⟨rfl, hbefore⟩ := hmay
    obtain ⟨hspawned, hs⟩ := Option.ite_none_right_eq_some.mp hexec
    cases hs
    refine h.moves (sameSessions_refl s).onward ?_ (by rintro ⟨⟩) hspawned (by rintro ⟨⟩) hhand
    rw [hbefore]
    rintro ⟨⟩
  | wgDone n =>
    obtain ⟨role, rfl, hrole, hseen⟩ := hmay
    exact h.ends hrole hseen hexec rfl hhand
  | select n =>
    obtain ⟨rfl, hrunning⟩ := hmay
    have hs := (sameSessions_of_exec rfl hexec).onward
    cases a with
    | ctxDone =>
      obtain ⟨hdone, hs'⟩ := Option.ite_none_right_eq_some.mp hexec
      refine h.notices hs ?_ (hs.done n hdone) rfl hhand
      rw [hrunning]
      rfl
    | event e => exact h.stays hs rfl hhand
  | pollSession n =>
    obtain ⟨role, rfl, hlive⟩ := hmay
    obtain ⟨hdone, hs⟩ := Option.ite_none_right_eq_some.mp hexec
    cases hs
    cases a with
    | true => exact h.notices (sameSessions_refl s).onward hlive hdone.symm rfl hhand
    | false => exact h.stays (sameSessions_refl s).onward rfl hhand
  | cancel n =>
    obtain ⟨hs, hdone⟩ := onward_cancel hexec
    rcases hmay with ⟨role, rfl, hlive⟩ | ⟨rfl, hdrained⟩
    · exact h.notices hs hlive hdone rfl hhand
    · refine h.stays hs ?_ hhand
      simp only [sessionProtocol, Stage.next, hdrained, Stage.notice]
  | _ => exact h.stays (sameSessions_of_exec rfl hexec).onward rfl hhand

end

/-- Where the goroutines start. -/
def Stage.init : Thread → Station
  | .run => (.dialing 0, none)
  | .session _ _ => (.before, none)

theorem sessionInv_new (table : Buffer.Table) : SessionInv (World.new table) Stage.init where
  begun _ _ hspawned := by cases hspawned
  started _ _ hne := absurd rfl hne
  done _ _ hknows := by cases hknows
  count _ := rfl
  past _ _ _ _ hspawned := by cases hspawned
  hand t := by
    cases t <;> rintro n m ⟨⟩

theorem stageHead_entry (t : Thread) : StageHead t (entry t) (Stage.init t) := by
  cases t with
  | run => exact rfl
  | session n role => exact ⟨rfl, rfl, rfl⟩

/-- The proof outline. -/
def sessionOutline (cfg : ManagerConfig) :
    System.Outline (managerSystem cfg) (sessionProtocol cfg) where
  head := StageHead
  final _ _ q := q.2 = none
  inv := SessionInv
  block_obeys t l q hhead := by
    refine (block_obeys_session hhead).mono fun res q hq => ?_
    cases res with
    | inl l => exact hq
    | inr r => exact hq
  call_inv t ch s q c a s' hinv hallow hexec := hinv.call hallow hexec
  env_inv v s q s' hinv hstep := by
    have hstay := hinv.stays (t := .run) (onward_outer hstep).1 rfl (hinv.hand .run)
    rwa [Function.update_eq_self] at hstay
  crash_inv _ _ _ _ _ _ hcrash := nomatch hcrash

/-! ### Over all runs -/

/-- The goroutine that has made a call. -/
def callBy : System.Occurrence Thread World Call Call.Ans Outer → Option Thread
  | .call t _ _ _ => some t
  | _ => none

/-- Where a goroutine makes a call it is active, or it starts. -/
theorem active_of_allows {cfg : ManagerConfig} {t : Thread} {q : Station} {c : Call}
    (hallow : (sessionProtocol cfg t).allows q c) :
    q.1.active ∨ ∃ n role, c = .started n role ∧ t = .session n role := by
  have hstage : ∀ {stage}, q.1 = stage → stage.active → q.1.active := by
    rintro stage rfl hactive
    exact hactive
  have hmay := hallow.2
  cases c with
  | started n role => exact .inr ⟨n, role, rfl, hmay.1⟩
  | writeMessage n f =>
    cases t with
    | run => exact .inl (hstage hmay.1 rfl)
    | session k role =>
      cases role with
      | writer | flushOnConnect | periodicFlush => exact .inl (Stage.active_of_live hmay.2.1)
      | _ => exact hmay.elim
  | go n role | wgWait n | select n => exact .inl (hstage hmay.2 rfl)
  | drainAcks => exact .inl (hstage hmay.2.choose_spec rfl)
  | closeConn n => exact .inl (hmay.2.elim (hstage · rfl) (hstage · rfl))
  | wgDone n =>
    obtain ⟨role, -, -, hseen⟩ := hmay
    exact .inl (hstage hseen rfl)
  | pollSession n =>
    obtain ⟨role, -, hlive⟩ := hmay
    exact .inl (Stage.active_of_live hlive)
  | cancel n =>
    rcases hmay with ⟨role, -, hlive⟩ | ⟨-, hdrained⟩
    · exact .inl (Stage.active_of_live hlive)
    · exact .inl (hstage hdrained rfl)
  | _ => exact .inl hmay

/-- A goroutine that has made a call has started. -/
theorem next_ne_before {cfg : ManagerConfig} {t : Thread} {q : Station} {c : Call}
    (hallow : (sessionProtocol cfg t).allows q c) (a : c.Ans) :
    ((sessionProtocol cfg t).next q c a).1 ≠ .before := by
  rcases active_of_allows hallow with hactive | ⟨n, role, rfl, -⟩
  · obtain ⟨q, hand⟩ := q
    cases q with
    | before => cases hactive
    | _ =>
      cases c with
      | writeMessage n f | pollSession n | select n => cases a <;> rintro ⟨⟩
      | _ => rintro ⟨⟩
  · rintro ⟨⟩

theorem follow_ne_before {cfg : ManagerConfig} {t : Thread} {q₀ : Station} {past : History}
    (hpast : System.Accepted (sessionProtocol cfg t) t q₀ past)
    {x : System.Occurrence Thread World Call Call.Ans Outer} (hx : x ∈ past)
    (hby : callBy x = some t) :
    (System.follow (sessionProtocol cfg t) t q₀ past).1 ≠ .before := by
  induction past with
  | nil => cases hx
  | cons y past ih =>
    cases y with
    | call u c a s =>
      by_cases hu : u = t
      · subst hu
        rw [System.follow_call_self]
        exact next_ne_before (hpast.1 rfl) a
      · rw [System.follow_call_of_ne hu]
        rcases List.mem_cons.mp hx with rfl | hx
        · exact absurd (Option.some.inj hby) hu
        · exact ih hpast.2 hx
    | env v s =>
      rcases List.mem_cons.mp hx with rfl | hx
      · cases hby
      · exact ih hpast hx
    | crash u s =>
      rcases List.mem_cons.mp hx with rfl | hx
      · cases hby
      · exact ih hpast hx

/-- `Run` is not past a session whose writer or reader makes a call. -/
theorem SessionInv.not_past_of_call {cfg : ManagerConfig} {s s' : World} {q : Thread → Station}
    {m : ℕ} {role : Role} {c : Call} {a : c.Ans} {ms : ℤ} (h : SessionInv s q)
    (hrole : role.awaited)
    (hallow : (sessionProtocol cfg (.session m role)).allows (q (.session m role)) c)
    (hexec : s.exec (.session m role) ms c a = some s') : ¬ (q .run).1.past m := by
  rcases active_of_allows hallow with hactive | ⟨n, r, rfl, heq⟩
  · exact h.not_past hrole hactive
  · cases heq
    intro hpast
    have hspawned := (Option.ite_none_right_eq_some.mp hexec).1
    have hbefore : (q (.session m role)).1 = .before := hallow.2.2
    rw [h.past m role hrole hpast hspawned] at hbefore
    cases hbefore

/-- **One session after the other.**  Over all runs, when the writer or the reader of a session does
anything, no goroutine of a later session has done anything yet. -/
theorem sessions_in_turn (cfg : ManagerConfig) (table : Buffer.Table) (c : RecordedConfig)
    (hreach : (managerSystem cfg).recorded.Reach
      ((managerSystem cfg).recorded.start ⟨World.new table, []⟩ entry) c)
    (later past : History) (x : System.Occurrence Thread World Call Call.Ans Outer)
    (hhistory : c.state.history = later ++ x :: past) (m : ℕ) (role : Role)
    (hx : callBy x = some (.session m role)) (hrole : role.awaited) :
    ∀ n role', m < n → ∀ y ∈ past, callBy y ≠ some (.session n role') := by
  have htraced := ((sessionOutline cfg).reach_traced (fun _ _ => rfl) (sessionInv_new table)
    stageHead_entry hreach).1
  rw [hhistory] at htraced
  obtain ⟨s, ⟨-, hleads, hallowed⟩, hpast⟩ := htraced.of_append
  intro n role' hmn y hy hby
  cases x with
  | call t e a s₀ =>
    cases hx
    obtain ⟨ms, hexec⟩ := hleads
    have hinv : SessionInv s₀ _ := hpast.inv
    -- session `n` has begun, so `Run` is past session `m`
    have hne := follow_ne_before (hpast.accepted (.session n role')) hy hby
    have hbegun := hinv.begun n role' (hinv.started n role' hne)
    exact hinv.not_past_of_call hrole hallowed hexec (Stage.past_of_begun hmn hbegun)
  | _ => cases hx

/-! ### A session that fails, and the next one -/

/-- The event after `sampleEvent`. -/
def secondEvent : Outbound :=
  .event (.modemAlert
    { envelope := { type := .modemAlert, messageID := [], ts := 0 }
      iccid := lit "89490200000123456789"
      alertCode := .simFull
      detail := lit "second" })

/-- The answers in the second session: the writer finds the second event. -/
def secondAnswer : (c : Call) → c.Ans
  | .select _ => .event (.outbox secondEvent)
  | .pollSession _ => true
  | c => sampleAnswer c

/-- The run: two events wait, the first session ends when `WriteMessage` fails on the first of them,
and the writer of the second session writes the second one. -/
def twoSessions : List (System.Move Thread Call Call.Ans ℤ Outer) :=
  [.env (.push sampleEvent), .env (.push secondEvent)] ++ sampleCalls 15 .run ++
    sampleCalls 1 (.session 0 .writer) ++ [.jump (.session 0 .writer)] ++
    sampleCalls 4 (.session 0 .writer) ++ [.call (.session 0 .writer) 0 failedAnswer] ++
    sampleCalls 2 (.session 0 .writer) ++
    sampleCalls 1 (.session 0 .reader) ++ [.jump (.session 0 .reader)] ++
    List.replicate 2 (.call (.session 0 .reader) 0 secondAnswer) ++
    sampleCalls 5 .run ++ [.jump .run] ++ sampleCalls 15 .run ++
    sampleCalls 1 (.session 1 .writer) ++ [.jump (.session 1 .writer)] ++
    List.replicate 5 (.call (.session 1 .writer) 0 secondAnswer)

/-- The state after a run from the start. -/
def playManager (moves : List (System.Move Thread Call Call.Ans ℤ Outer)) : Option RecordedConfig :=
  (managerSystem sampleConfig).recorded.play
    ((managerSystem sampleConfig).recorded.start ⟨World.new .empty, []⟩ entry) moves

/-- The reader of the first session has ended before the second session starts. -/
theorem sessions_in_turn_reader :
    ∃ (c : RecordedConfig) (later past : History)
      (x : System.Occurrence Thread World Call Call.Ans Outer),
      (managerSystem sampleConfig).recorded.Reach
        ((managerSystem sampleConfig).recorded.start ⟨World.new .empty, []⟩ entry) c ∧
      c.state.history = later ++ x :: past ∧ callBy x = some (.session 0 .reader) ∧
        (∃ y ∈ later, callBy y = some (.session 1 .writer)) ∧
          ∀ n role', 0 < n → ∀ y ∈ past, callBy y ≠ some (.session n role') := by
  have hplay : (playManager twoSessions).map (fun c => ((c.state.history.drop 26).head?.bind callBy,
      decide (some (Thread.session 1 .writer) ∈ (c.state.history.take 26).map callBy))) =
        some (some (.session 0 .reader), true) := by
    decide +kernel
  obtain ⟨c, hc, hreport⟩ := Option.map_eq_some_iff.mp hplay
  obtain ⟨hhead, hlater⟩ := Prod.mk.injEq _ _ _ _ ▸ hreport
  obtain ⟨x, hx, hby⟩ := Option.bind_eq_some_iff.mp hhead
  obtain ⟨y, hy, hyby⟩ := List.mem_map.mp (of_decide_eq_true hlater)
  have hsplit : c.state.history =
      c.state.history.take 26 ++ x :: (c.state.history.drop 26).tail := by
    rw [← List.eq_cons_of_mem_head? hx, List.take_append_drop]
  have hreach := System.reach_of_play hc
  exact ⟨c, _, _, x, hreach, hsplit, hby, ⟨y, hy, hyby⟩,
    sessions_in_turn sampleConfig .empty c hreach _ _ x hsplit 0 .reader hby rfl⟩

end SmsGate.Tunnel
