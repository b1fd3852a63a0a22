import Mathlib.Tactic.Common

/-!
# Outcomes of a Go call

A Go function ends in one of three ways: it returns a value, it returns an error, or an index or
slice expression is out of range and the run-time panics.  `Outcome ε α` keeps the three apart, so
that "this function never panics" is a statement about its value.

* `index xs i` is `xs[i]`, `slice xs lo hi` is `xs[lo:hi]` and `store xs i a` is `xs[i] = a`, with
  Go's bounds checks;
* `failIf c e` is the statement `if c { return e }`.

A slice expression is checked against the length and not against the capacity, so what is in
range here is in range in Go.
-/

namespace Go

/-- What a Go call ends in. -/
inductive Outcome (ε α : Type) where
  /-- The call returned a value. -/
  | ok (a : α)
  /-- The call returned an error. -/
  | err (e : ε)
  /-- An index or slice expression was out of range. -/
  | panic
  deriving DecidableEq

namespace Outcome

variable {ε α β : Type}

/-- Sequencing: an error or a panic ends the function. -/
def bind : Outcome ε α → (α → Outcome ε β) → Outcome ε β
  | ok a, f => f a
  | err e, _ => err e
  | panic, _ => panic

instance : Monad (Outcome ε) where
  pure := ok
  bind := bind

@[simp] theorem pure_eq_ok (a : α) : (pure a : Outcome ε α) = ok a := rfl
@[simp] theorem ok_bind (a : α) (f : α → Outcome ε β) : (ok a >>= f) = f a := rfl
@[simp] theorem err_bind (e : ε) (f : α → Outcome ε β) : (err e >>= f) = err e := rfl
/-- `xs[i]`. -/
def index (xs : List α) (i : ℕ) : Outcome ε α :=
  match xs[i]? with
  | some a => ok a
  | none => panic

/-- `xs[lo:hi]`. -/
def slice (xs : List α) (lo hi : ℕ) : Outcome ε (List α) :=
  if lo ≤ hi ∧ hi ≤ xs.length then ok ((xs.take hi).drop lo) else panic

/-- `xs[i] = a`. -/
def store (xs : List α) (i : ℕ) (a : α) : Outcome ε (List α) :=
  if i < xs.length then ok (xs.set i a) else panic

/-- `if c { return e }`. -/
def failIf (c : Prop) [Decidable c] (e : ε) : Outcome ε Unit :=
  if c then err e else ok ()

/-! ### The checks, once their bounds are known -/

theorem index_eq_ok {xs : List α} {i : ℕ} {a : α} (h : xs[i]? = some a) :
    (index xs i : Outcome ε α) = ok a := by
  rw [index, h]

theorem index_of_lt {xs : List α} {i : ℕ} (h : i < xs.length) :
    (index xs i : Outcome ε α) = ok xs[i] :=
  index_eq_ok (List.getElem?_eq_getElem h)

theorem slice_of_le {xs : List α} {lo hi : ℕ} (h : lo ≤ hi) (hi' : hi ≤ xs.length) :
    (slice xs lo hi : Outcome ε (List α)) = ok ((xs.take hi).drop lo) := by
  rw [slice, if_pos ⟨h, hi'⟩]

theorem store_of_lt {xs : List α} {i : ℕ} (h : i < xs.length) (a : α) :
    (store xs i a : Outcome ε (List α)) = ok (xs.set i a) := by
  rw [store, if_pos h]

theorem failIf_of_true {c : Prop} [Decidable c] (h : c) (e : ε) : failIf c e = err e := by
  rw [failIf, if_pos h]

theorem failIf_of_false {c : Prop} [Decidable c] (h : ¬ c) (e : ε) : failIf c e = ok () := by
  rw [failIf, if_neg h]

/-! ### A loop that appends -/

instance : LawfulMonad (Outcome ε) := LawfulMonad.mk' (Outcome ε)
  (fun x => by cases x <;> rfl) (fun _ _ => rfl) (fun x _ _ => by cases x <;> rfl)

/-- A loop whose body returns a value each time collects the values. -/
theorem mapM_eq_ok {f : α → Outcome ε β} {g : α → β} {xs : List α} (h : ∀ x ∈ xs, f x = ok (g x)) :
    xs.mapM f = ok (xs.map g) := by
  induction xs with
  | nil => rfl
  | cons x xs ih =>
    rw [List.mapM_cons, h x List.mem_cons_self, ok_bind,
      ih fun y hy => h y (List.mem_cons_of_mem x hy)]
    rfl

/-! ### A cursor

A parser that keeps a position in a list: what follows the position decides what is read there. -/

theorem index_of_drop {xs rest : List α} {a : α} {pos : ℕ} (h : xs.drop pos = a :: rest) :
    (index xs pos : Outcome ε α) = ok a :=
  index_eq_ok (by rw [← List.head?_drop, h, List.head?_cons])

theorem lt_of_drop {xs rest : List α} {a : α} {pos : ℕ} (h : xs.drop pos = a :: rest) :
    pos + rest.length < xs.length := by
  have hlen := congrArg List.length h
  rw [List.length_drop, List.length_cons] at hlen
  omega

theorem drop_succ_of_drop {xs rest : List α} {a : α} {pos : ℕ} (h : xs.drop pos = a :: rest) :
    xs.drop (pos + 1) = rest := by
  rw [← List.drop_drop, h, List.drop_one, List.tail_cons]

theorem slice_of_drop {xs mid rest : List α} {pos hi : ℕ} (h : xs.drop pos = mid ++ rest)
    (hpos : pos ≤ xs.length) (hhi : hi = pos + mid.length) :
    (slice xs pos hi : Outcome ε (List α)) = ok mid := by
  have hlen := congrArg List.length h
  rw [List.length_drop, List.length_append] at hlen
  rw [slice_of_le (by omega) (by omega), hhi, List.drop_take, Nat.add_sub_cancel_left, h,
    List.take_left]

theorem drop_add_of_drop {xs mid rest : List α} {pos hi : ℕ} (h : xs.drop pos = mid ++ rest)
    (hhi : hi = pos + mid.length) : xs.drop hi = rest := by
  rw [hhi, ← List.drop_drop, h, List.drop_left]

end Outcome

end Go
