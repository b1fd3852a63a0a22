import SmsGate.Prog.System

/-!
# Several calls in turn

A thread of `S.inTurn` runs several entries of `S`, one after the other, and collects their results.
A proof outline for `S` is one for `S.inTurn`, if each of the entries can be run once another one
has ended (`Outline.inTurn`).
-/

namespace System

variable {T σ E : Type} {A : E → Type} {L R C V Q : Type}

/-- Where a thread is: the results so far, and what is still to be run, with the block at which the
thread is in front. -/
structure Turns (L R : Type) where
  done : List R
  todo : List L

/-- The system in which every thread runs several entries. -/
def inTurn (S : System T σ E A L R C V) : System T σ E A (Turns L R) (List R) C V where
  block t w :=
    match w.todo with
    | [] => .ret (.inr w.done)
    | l :: todo => S.block t l >>= fun
      | .inl l' => .ret (.inl ⟨w.done, l' :: todo⟩)
      | .inr r => .ret (.inl ⟨w.done ++ [r], todo⟩)
  exec := S.exec
  env := S.env
  crash t s := (S.crash t s).map fun p => (⟨[], [p.1]⟩, p.2)

namespace Outline

variable [DecidableEq T] {S : System T σ E A L R C V} {P : T → Protocol E A Q}

/-- Every entry in the list can be run once another one has ended. -/
def Runs (O : Outline S P) (t : T) (todo : List L) : Prop :=
  ∀ l ∈ todo, ∀ r q, O.final t r q → O.head t l q

/-- What holds where a thread is about to run the entries of a list. -/
def TurnsHead (O : Outline S P) (t : T) (q : Q) : List L → Prop
  | [] => True
  | l :: todo => O.head t l q ∧ O.Runs t todo

theorem turnsHead_of_final {O : Outline S P} {t : T} {r : R} {q : Q} {todo : List L}
    (hfinal : O.final t r q) (hruns : O.Runs t todo) : O.TurnsHead t q todo := by
  cases todo with
  | nil => trivial
  | cons l todo =>
    refine ⟨hruns l List.mem_cons_self r q hfinal, fun l' hl' => ?_⟩
    exact hruns l' (List.mem_cons_of_mem l hl')

/-- The outline for entries that are run in turn. -/
def inTurn (O : Outline S P) : Outline S.inTurn P where
  head t w q := O.TurnsHead t q w.todo
  final _ _ _ := True
  inv := O.inv
  block_obeys t w q hhead := by
    obtain ⟨done, todo⟩ := w
    cases todo with
    | nil => trivial
    | cons l todo =>
      refine (O.block_obeys t l q hhead.1).bind fun res q' hres => ?_
      cases res with
      | inl l' => exact ⟨hres, hhead.2⟩
      | inr r => exact turnsHead_of_final hres hhead.2
  call_inv := O.call_inv
  env_inv := O.env_inv
  crash_inv t s q w s' hinv hcrash := by
    obtain ⟨⟨l, s₁⟩, hstep, hp⟩ := Option.map_eq_some_iff.mp hcrash
    cases hp
    obtain ⟨q', hhead, hinv'⟩ := O.crash_inv t s q l s₁ hinv hstep
    exact ⟨q', ⟨hhead, fun l' hl' => absurd hl' List.not_mem_nil⟩, hinv'⟩

end Outline

end System
