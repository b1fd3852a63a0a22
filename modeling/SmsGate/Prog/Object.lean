import Mathlib.Data.List.Induction

/-!
# Objects behind a lock

An object answers one call at a time: `step s x` is the answer to the call `x` in the state `s`,
with the state that it leaves.  However many callers there are, what the object sees is one list of
calls, in the order in which they got the lock.

* `after`, `answered`: the state after a list of calls, and the calls with their answers;
* `invariant`: what holds of a new object and is kept by every call holds after any list of calls.
  It may speak of the calls so far and their answers.  Where the list keeps an order, such as that
  of time, a call may be taken to stand behind all calls before it.
* `part_answered`: the answers of a part of the object that only some calls use do not depend on the
  others.
-/

namespace Object

variable {σ ι ο : Type} (step : σ → ι → ο × σ)

/-- The state after the calls `xs`. -/
def after (s : σ) : List ι → σ
  | [] => s
  | x :: xs => after (step s x).2 xs

/-- The calls `xs` with their answers. -/
def answered (s : σ) : List ι → List (ι × ο)
  | [] => []
  | x :: xs => (x, (step s x).1) :: answered (step s x).2 xs

theorem after_append (s : σ) (xs ys : List ι) :
    after step s (xs ++ ys) = after step (after step s xs) ys := by
  induction xs generalizing s with
  | nil => rfl
  | cons x xs ih => exact ih _

theorem answered_append (s : σ) (xs ys : List ι) :
    answered step s (xs ++ ys) = answered step s xs ++ answered step (after step s xs) ys := by
  induction xs generalizing s with
  | nil => rfl
  | cons x xs ih => exact congrArg _ (ih _)

theorem map_fst_answered (s : σ) (xs : List ι) : (answered step s xs).map Prod.fst = xs := by
  induction xs generalizing s with
  | nil => rfl
  | cons x xs ih => exact congrArg _ (ih _)

/-- Where a call stands and what it is answered. -/
theorem mem_answered_iff {s : σ} {xs : List ι} {p : ι × ο} :
    p ∈ answered step s xs ↔
      ∃ us vs, xs = us ++ p.1 :: vs ∧ p.2 = (step (after step s us) p.1).1 := by
  induction xs generalizing s with
  | nil => simp [answered]
  | cons x xs ih =>
    rw [answered, List.mem_cons, ih]
    constructor
    · rintro (rfl | ⟨us, vs, rfl, hp⟩)
      · exact ⟨[], xs, rfl, rfl⟩
      · exact ⟨x :: us, vs, rfl, hp⟩
    · rintro ⟨us, vs, hsplit, hp⟩
      cases us with
      | nil =>
        obtain ⟨rfl, rfl⟩ := List.cons.inj hsplit
        exact .inl (Prod.ext rfl hp)
      | cons u us =>
        obtain ⟨rfl, rfl⟩ := List.cons.inj hsplit
        exact .inr ⟨us, vs, rfl, hp⟩

/-- **Invariants of an object**, along calls of which each stands in the relation `R` to those
behind it. -/
theorem invariant (R : ι → ι → Prop) (I : List (ι × ο) → σ → Prop) {s : σ} (hnew : I [] s)
    (hstep : ∀ past s x, (∀ p ∈ past, R p.1 x) → I past s →
      I (past ++ [(x, (step s x).1)]) (step s x).2)
    {xs : List ι} (hxs : xs.Pairwise R) : I (answered step s xs) (after step s xs) := by
  induction xs using List.reverseRecOn with
  | nil => exact hnew
  | append_singleton xs x ih =>
    obtain ⟨hbefore, -, hlast⟩ := List.pairwise_append.mp hxs
    rw [answered_append, after_append]
    refine hstep _ _ x (fun p hp => ?_) (ih hbefore)
    have hmem : p.1 ∈ xs := by
      rw [← map_fst_answered step s xs]
      exact List.mem_map_of_mem hp
    exact hlast p.1 hmem x List.mem_cons_self

/-! ### Parts of an object -/

section Parts

variable {step} (keep : ι → Bool) (S : σ → σ → Prop)
  (hkeep : ∀ s s' x, keep x → S s s' → (step s x).1 = (step s' x).1 ∧ S (step s x).2 (step s' x).2)
  (hskip : ∀ s s' x, keep x = false → S s s' → S (step s x).2 s')

include hkeep hskip

/-- The answers of a part do not change when the calls that do not use it are left out. -/
theorem part_answered {s s' : σ} (h : S s s') (xs : List ι) :
    (answered step s xs).filter (fun p => keep p.1) = answered step s' (xs.filter keep) := by
  induction xs generalizing s s' with
  | nil => rfl
  | cons x xs ih =>
    rw [answered]
    cases hx : keep x with
    | true =>
      obtain ⟨hanswer, hnext⟩ := hkeep s s' x hx h
      rw [List.filter_cons_of_pos (p := fun p : ι × ο => keep p.1) hx, List.filter_cons_of_pos hx,
        answered, ← hanswer, ih hnext]
    | false =>
      have hx' : ¬ keep x = true := by
        rw [hx]
        exact Bool.false_ne_true
      rw [List.filter_cons_of_neg (p := fun p : ι × ο => keep p.1) hx',
        List.filter_cons_of_neg hx']
      exact ih (hskip s s' x hx h)

end Parts

end Object
