import SmsGate.Prog.System

/-!
# Calls that are runs

A call of one system can be a run of another one: a thread of `S` is started at a block, runs next
to the other threads, and its result is the answer.  Between two such calls the thread rests, and
the other threads wait where they are; what they do in the meantime can be taken as a part of the
next call.

* `serve`: the result of such a call, and the configuration that it leaves;
* `Outline.Rests`: the invariant of an outline holds, and every thread but the one that rests is
  where its protocol state says it is.  A call keeps this (`Outline.Rests.serve`).
-/

namespace System

variable {T σ E : Type} {A : E → Type} {L R C V Q : Type} [DecidableEq T]

/-- A thread that rests is started at a block. -/
def launch (S : System T σ E A L R C V) (t : T) (l : L) (c : Config T σ E A L R) :
    Config T σ E A L R :=
  { c with threads := Function.update c.threads t (.running (S.block t l)) }

/-- The call that is the run `ms` of a thread from a block on. -/
def serve (S : System T σ E A L R C V) (t : T) (l : L) (ms : List (Move T E A C V))
    (c : Config T σ E A L R) : Option (R × Config T σ E A L R) :=
  (S.play (S.launch t l c) ms).bind fun c' =>
    match c'.threads t with
    | .stopped r => some (r, c')
    | .running _ => none

variable {S : System T σ E A L R C V} {t : T} {l : L} {ms : List (Move T E A C V)}
  {c c' : Config T σ E A L R} {r : R}

theorem reach_of_serve (h : S.serve t l ms c = some (r, c')) :
    S.Reach (S.launch t l c) c' ∧ c'.threads t = .stopped r := by
  obtain ⟨c₁, hplay, hresult⟩ := Option.bind_eq_some_iff.mp h
  cases hstop : c₁.threads t with
  | running p =>
    rw [hstop] at hresult
    cases hresult
  | stopped r₁ =>
    rw [hstop] at hresult
    cases hresult
    exact ⟨reach_of_play hplay, hstop⟩

namespace Outline

variable {P : T → Protocol E A Q} {O : Outline S P} {q : T → Q}

/-- Every thread but `t` is where its protocol state says it is. -/
def Rests (O : Outline S P) (t : T) (c : Config T σ E A L R) (q : T → Q) : Prop :=
  O.inv c.state q ∧ ∀ u, u ≠ t → O.Follows u (c.threads u) (q u)

/-- A call keeps the invariant, and its result is one of the thread. -/
theorem Rests.serve (h : O.Rests t c q) (hhead : O.head t l (q t))
    (hserve : S.serve t l ms c = some (r, c')) : ∃ q', O.Rests t c' q' ∧ O.final t r (q' t) := by
  obtain ⟨hreach, hstop⟩ := reach_of_serve hserve
  have hlaunch : O.Holds (S.launch t l c) := by
    refine ⟨q, h.1, fun u => ?_⟩
    show O.Follows u (Function.update c.threads t (.running (S.block t l)) u) (q u)
    by_cases hu : u = t
    · subst hu
      rw [Function.update_self]
      exact O.block_obeys u l (q u) hhead
    · rw [Function.update_of_ne hu]
      exact h.2 u hu
  obtain ⟨q', hinv, hfollows⟩ := O.reach hlaunch hreach
  have ht := hfollows t
  rw [hstop] at ht
  exact ⟨q', ⟨hinv, fun u _ => hfollows u⟩, ht⟩

end Outline

end System
