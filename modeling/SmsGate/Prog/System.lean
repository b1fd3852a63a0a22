import SmsGate.Prog.Basic
import Mathlib.Logic.Function.Basic
import Mathlib.Logic.Relation

/-!
# Systems of threads

A `System` runs threads `t : T` over a shared state.  The code of a thread is a family of blocks:
a block is a `Prog` that ends in a jump to another block or in a result.  One step of the system is
one call of one thread, a jump, a step of the environment, or a crash that cuts a thread off and
starts it again.

* `Step`, `Reach`: the runs of a system, over every schedule;
* `play`: an executable scheduler, for runs on fixed inputs (`reach_of_play`);
* `Outline`: a proof outline.  The protocol of each thread says which calls its code makes and when;
  the invariant relates the shared state to the protocol states.  What the code does is checked
  block by block, what the invariant needs is checked call by call, and `Outline.reach` puts the two
  together for every interleaving;
* `System.restrict`: the runs in which every call meets a condition, and `Outline.restrict` for what
  they keep beyond what all runs keep;
* `Outline.also`, `Outline.prod`: an outline with a second invariant, or with a second protocol.
-/

/-- Threads over a shared state `σ`.  `C` are the choices that a call leaves open beside its
answer, and `V` the events of the environment. -/
structure System (T σ E : Type) (A : E → Type) (L R C V : Type) where
  /-- The code of a thread, block by block. -/
  block : T → L → Prog E A (L ⊕ R)
  /-- The effect of a call that is answered by `a`; `none` if it cannot be answered so. -/
  exec : T → C → σ → (e : E) → A e → Option σ
  /-- A step of the environment. -/
  env : V → σ → Option σ
  /-- A crash: the block at which the thread starts again, and the state it finds. -/
  crash : T → σ → Option (L × σ)

namespace System

variable {T σ E : Type} {A : E → Type} {L R C V Q : Type}

/-- What a thread is about to do. -/
inductive Local (E : Type) (A : E → Type) (L R : Type) where
  | running (p : Prog E A (L ⊕ R))
  | stopped (r : R)

/-- The shared state and every thread's position. -/
structure Config (T σ E : Type) (A : E → Type) (L R : Type) where
  state : σ
  threads : T → Local E A L R

/-- The threads at the start of their blocks. -/
def start (S : System T σ E A L R C V) (s : σ) (entry : T → L) : Config T σ E A L R where
  state := s
  threads t := .running (S.block t (entry t))

variable [DecidableEq T]

/-- One step of the system. -/
inductive Step (S : System T σ E A L R C V) : Config T σ E A L R → Config T σ E A L R → Prop
  | call {c : Config T σ E A L R} (t : T) (ch : C) {e : E} {k : A e → Prog E A (L ⊕ R)} (a : A e)
      {s' : σ} (hrun : c.threads t = .running (.call e k))
      (hexec : S.exec t ch c.state e a = some s') :
      Step S c { state := s', threads := Function.update c.threads t (.running (k a)) }
  | jump {c : Config T σ E A L R} (t : T) {l : L} (hrun : c.threads t = .running (.ret (.inl l))) :
      Step S c { c with threads := Function.update c.threads t (.running (S.block t l)) }
  | stop {c : Config T σ E A L R} (t : T) {r : R} (hrun : c.threads t = .running (.ret (.inr r))) :
      Step S c { c with threads := Function.update c.threads t (.stopped r) }
  | env {c : Config T σ E A L R} (v : V) {s' : σ} (henv : S.env v c.state = some s') :
      Step S c { c with state := s' }
  | crash {c : Config T σ E A L R} (t : T) {l : L} {s' : σ}
      (hcrash : S.crash t c.state = some (l, s')) :
      Step S c { state := s', threads := Function.update c.threads t (.running (S.block t l)) }

/-- The configurations a run can reach. -/
def Reach (S : System T σ E A L R C V) : Config T σ E A L R → Config T σ E A L R → Prop :=
  Relation.ReflTransGen S.Step

/-! ### The steps of one thread -/

section

variable {S : System T σ E A L R C V} {c : Config T σ E A L R} {t : T}

theorem exists_step_call (ch : C) {e : E} {k : A e → Prog E A (L ⊕ R)} {a : A e} {s' : σ}
    (hrun : c.threads t = .running (.call e k)) (hexec : S.exec t ch c.state e a = some s') :
    ∃ c', S.Step c c' ∧ c'.state = s' ∧ c'.threads t = .running (k a) :=
  ⟨_, .call t ch a hrun hexec, rfl, Function.update_self _ _ _⟩

theorem exists_step_jump {l : L} (hrun : c.threads t = .running (.ret (.inl l))) :
    ∃ c', S.Step c c' ∧ c'.state = c.state ∧ c'.threads t = .running (S.block t l) :=
  ⟨_, .jump t hrun, rfl, Function.update_self _ _ _⟩

theorem exists_step_stop {r : R} (hrun : c.threads t = .running (.ret (.inr r))) :
    ∃ c', S.Step c c' ∧ c'.state = c.state ∧ c'.threads t = .stopped r :=
  ⟨_, .stop t hrun, rfl, Function.update_self _ _ _⟩

end

/-- The system in which every call meets a condition on the state, the call and its answer. -/
def restrict (S : System T σ E A L R C V) (ok : T → σ → (e : E) → A e → Bool) :
    System T σ E A L R C V where
  block := S.block
  exec t ch s e a := if ok t s e a then S.exec t ch s e a else none
  env := S.env
  crash := S.crash

/-! ### Runs on fixed inputs -/

/-- One move of the scheduler.  The answer to the next call is given as a function of the call. -/
inductive Move (T E : Type) (A : E → Type) (C V : Type) where
  | call (t : T) (ch : C) (answer : (e : E) → A e)
  | jump (t : T)
  | env (v : V)
  | crash (t : T)

/-- The configuration after one move, if the system can make it. -/
def playMove (S : System T σ E A L R C V) (c : Config T σ E A L R) :
    Move T E A C V → Option (Config T σ E A L R)
  | .call t ch answer =>
    match c.threads t with
    | .running (.call e k) =>
      (S.exec t ch c.state e (answer e)).map fun s' =>
        { state := s', threads := Function.update c.threads t (.running (k (answer e))) }
    | _ => none
  | .jump t =>
    match c.threads t with
    | .running (.ret (.inl l)) =>
      some { c with threads := Function.update c.threads t (.running (S.block t l)) }
    | .running (.ret (.inr r)) =>
      some { c with threads := Function.update c.threads t (.stopped r) }
    | _ => none
  | .env v => (S.env v c.state).map fun s' => { c with state := s' }
  | .crash t =>
    (S.crash t c.state).map fun p =>
      { state := p.2, threads := Function.update c.threads t (.running (S.block t p.1)) }

/-- The configuration after a list of moves. -/
def play (S : System T σ E A L R C V) (c : Config T σ E A L R) :
    List (Move T E A C V) → Option (Config T σ E A L R)
  | [] => some c
  | m :: ms => (S.playMove c m).bind fun c' => play S c' ms

theorem step_of_playMove {S : System T σ E A L R C V} {c c' : Config T σ E A L R}
    {m : Move T E A C V} (h : S.playMove c m = some c') : S.Step c c' := by
  cases m with
  | call t ch answer =>
    unfold playMove at h
    dsimp only at h
    split at h
    · rename_i e k hrun
      obtain ⟨s', hexec, rfl⟩ := Option.map_eq_some_iff.mp h
      exact .call t ch (answer e) hrun hexec
    · cases h
  | jump t =>
    unfold playMove at h
    dsimp only at h
    split at h
    · rename_i l hrun
      cases h
      exact .jump t hrun
    · rename_i r hrun
      cases h
      exact .stop t hrun
    · cases h
  | env v =>
    obtain ⟨s', henv, rfl⟩ := Option.map_eq_some_iff.mp h
    exact .env v henv
  | crash t =>
    obtain ⟨⟨l, s'⟩, hcrash, rfl⟩ := Option.map_eq_some_iff.mp h
    exact .crash t hcrash

/-- What the scheduler plays is a run. -/
theorem reach_of_play {S : System T σ E A L R C V} {c c' : Config T σ E A L R}
    {ms : List (Move T E A C V)} (h : S.play c ms = some c') : S.Reach c c' := by
  induction ms generalizing c with
  | nil =>
    cases h
    exact .refl
  | cons m ms ih =>
    obtain ⟨c₁, hmove, hplay⟩ := Option.bind_eq_some_iff.mp h
    exact .head (step_of_playMove hmove) (ih hplay)

/-! ### Proof outlines -/

/-- A proof that the code of every thread keeps to its protocol, and that every call which a
protocol allows keeps an invariant of the shared state and the protocol states. -/
structure Outline (S : System T σ E A L R C V) (P : T → Protocol E A Q) where
  /-- What holds where a block starts. -/
  head : T → L → Q → Prop
  /-- What holds when a thread has stopped. -/
  final : T → R → Q → Prop
  /-- The invariant. -/
  inv : σ → (T → Q) → Prop
  block_obeys : ∀ t l q, head t l q →
    (S.block t l).Obeys (P t) q fun res => Sum.elim (head t) (final t) res
  call_inv : ∀ t ch s q e a s', inv s q → (P t).allows (q t) e → S.exec t ch s e a = some s' →
    inv s' (Function.update q t ((P t).next (q t) e a))
  env_inv : ∀ v s q s', inv s q → S.env v s = some s' → inv s' q
  crash_inv : ∀ t s q l s', inv s q → S.crash t s = some (l, s') →
    ∃ q', head t l q' ∧ inv s' (Function.update q t q')

namespace Outline

variable {S : System T σ E A L R C V} {P : T → Protocol E A Q}

/-- A thread is where its protocol state says it is. -/
def Follows (O : Outline S P) (t : T) : Local E A L R → Q → Prop
  | .running p, q => p.Obeys (P t) q fun res => Sum.elim (O.head t) (O.final t) res
  | .stopped r, q => O.final t r q

/-- The invariant holds of the shared state and protocol states that the threads follow. -/
def Holds (O : Outline S P) (c : Config T σ E A L R) : Prop :=
  ∃ q, O.inv c.state q ∧ ∀ t, O.Follows t (c.threads t) (q t)

theorem holds_start (O : Outline S P) {s : σ} {entry : T → L} {q : T → Q} (hinv : O.inv s q)
    (hhead : ∀ t, O.head t (entry t) (q t)) : O.Holds (S.start s entry) :=
  ⟨q, hinv, fun t => O.block_obeys t (entry t) (q t) (hhead t)⟩

/-- After a step of thread `t` the other threads are where they were. -/
theorem follows_update (O : Outline S P) {threads : T → Local E A L R} {q : T → Q} {t : T}
    {l : Local E A L R} {q' : Q} (hall : ∀ u, O.Follows u (threads u) (q u))
    (ht : O.Follows t l q') :
    ∀ u, O.Follows u (Function.update threads t l u) (Function.update q t q' u) := by
  intro u
  by_cases hu : u = t
  · subst hu
    rw [Function.update_self, Function.update_self]
    exact ht
  · rw [Function.update_of_ne hu, Function.update_of_ne hu]
    exact hall u

theorem holds_step (O : Outline S P) {c c' : Config T σ E A L R} (h : O.Holds c)
    (hstep : S.Step c c') : O.Holds c' := by
  obtain ⟨q, hinv, hall⟩ := h
  cases hstep with
  | call t ch a hrun hexec =>
    have ht := hall t
    rw [hrun] at ht
    exact ⟨_, O.call_inv t ch _ q _ a _ hinv ht.1 hexec, O.follows_update hall (ht.2 a)⟩
  | jump t hrun =>
    have ht := hall t
    rw [hrun] at ht
    refine ⟨Function.update q t (q t), by rwa [Function.update_eq_self], O.follows_update hall ?_⟩
    exact O.block_obeys t _ (q t) ht
  | stop t hrun =>
    have ht := hall t
    rw [hrun] at ht
    exact ⟨Function.update q t (q t), by rwa [Function.update_eq_self], O.follows_update hall ht⟩
  | env v henv => exact ⟨q, O.env_inv v _ q _ hinv henv, hall⟩
  | crash t hcrash =>
    obtain ⟨q', hhead, hinv'⟩ := O.crash_inv t _ q _ _ hinv hcrash
    exact ⟨_, hinv', O.follows_update hall (O.block_obeys t _ q' hhead)⟩

/-- **The invariant holds in every reachable configuration.** -/
theorem reach (O : Outline S P) {c c' : Config T σ E A L R} (h : O.Holds c)
    (hreach : S.Reach c c') : O.Holds c' := by
  induction hreach with
  | refl => exact h
  | tail _ hstep ih => exact O.holds_step ih hstep

/-- An outline for the runs in which every call meets a condition, with what else they keep. -/
def restrict (O : Outline S P) (ok : T → σ → (e : E) → A e → Bool) (J : σ → Prop)
    (hcall : ∀ t ch s e a s', J s → ok t s e a → S.exec t ch s e a = some s' → J s')
    (henv : ∀ v s s', J s → S.env v s = some s' → J s')
    (hcrash : ∀ t s l s', J s → S.crash t s = some (l, s') → J s') :
    Outline (S.restrict ok) P where
  head := O.head
  final := O.final
  inv s q := O.inv s q ∧ J s
  block_obeys := O.block_obeys
  call_inv t ch s q e a s' hinv hallow hexec := by
    obtain ⟨hok, hexec⟩ := Option.ite_none_right_eq_some.mp hexec
    exact ⟨O.call_inv t ch s q e a s' hinv.1 hallow hexec, hcall t ch s e a s' hinv.2 hok hexec⟩
  env_inv v s q s' hinv hstep := ⟨O.env_inv v s q s' hinv.1 hstep, henv v s s' hinv.2 hstep⟩
  crash_inv t s q l s' hinv hstep := by
    obtain ⟨q', hhead, hinv'⟩ := O.crash_inv t s q l s' hinv.1 hstep
    exact ⟨q', hhead, hinv', hcrash t s l s' hinv.2 hstep⟩

/-- An outline with a second invariant, for a system that does not crash.  The step of the second
one can rely on the first. -/
def also (O : Outline S P) (J : σ → (T → Q) → Prop)
    (hcall : ∀ t ch s q e a s', O.inv s q → J s q → (P t).allows (q t) e →
      S.exec t ch s e a = some s' → J s' (Function.update q t ((P t).next (q t) e a)))
    (henv : ∀ v s q s', O.inv s q → J s q → S.env v s = some s' → J s' q)
    (hcrash : ∀ t s, S.crash t s = none) : Outline S P where
  head := O.head
  final := O.final
  inv s q := O.inv s q ∧ J s q
  block_obeys := O.block_obeys
  call_inv t ch s q e a s' hinv hallow hexec :=
    ⟨O.call_inv t ch s q e a s' hinv.1 hallow hexec,
      hcall t ch s q e a s' hinv.1 hinv.2 hallow hexec⟩
  env_inv v s q s' hinv hstep :=
    ⟨O.env_inv v s q s' hinv.1 hstep, henv v s q s' hinv.1 hinv.2 hstep⟩
  crash_inv t s q l s' _ hstep := by
    rw [hcrash] at hstep
    cases hstep

/-- The first components after a thread has moved. -/
theorem fst_update {Q' : Type} (q : T → Q × Q') (t : T) (p : Q × Q') :
    (fun u => (Function.update q t p u).1) = Function.update (fun u => (q u).1) t p.1 :=
  funext fun u => Function.apply_update (fun _ => Prod.fst) q t p u

/-- The second ones. -/
theorem snd_update {Q' : Type} (q : T → Q × Q') (t : T) (p : Q × Q') :
    (fun u => (Function.update q t p u).2) = Function.update (fun u => (q u).2) t p.2 :=
  funext fun u => Function.apply_update (fun _ => Prod.snd) q t p u

/-- An outline with a second protocol, to which every block keeps from any state, for a system that
does not crash. -/
def prod (O : Outline S P) {Q' : Type} (P' : T → Protocol E A Q')
    (hblock : ∀ t l q, (S.block t l).Obeys (P' t) q fun _ _ => True)
    (hcrash : ∀ t s, S.crash t s = none) : Outline S fun t => (P t).prod (P' t) where
  head t l q := O.head t l q.1
  final t r q := O.final t r q.1
  inv s q := O.inv s fun t => (q t).1
  block_obeys t l q hhead := by
    refine ((O.block_obeys t l q.1 hhead).prod (hblock t l q.2)).mono fun res q' hres => ?_
    cases res with
    | inl l => exact hres.1
    | inr r => exact hres.1
  call_inv t ch s q e a s' hinv hallow hexec := by
    rw [fst_update]
    exact O.call_inv t ch s _ e a s' hinv hallow.1 hexec
  env_inv v s q s' hinv hstep := O.env_inv v s _ s' hinv hstep
  crash_inv t s q l s' _ hstep := by
    rw [hcrash] at hstep
    cases hstep

end Outline

end System
