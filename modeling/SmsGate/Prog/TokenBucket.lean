import Mathlib.Algebra.Order.Field.Basic
import Mathlib.Tactic.Linarith
import Mathlib.Tactic.Ring

/-!
# Token buckets

A bucket of a capacity is filled at a constant rate; what passes takes one token out.  `Account`
compares the level of a bucket with the times at which something has passed.  The potential behind
it is what has passed since a time `x`, together with what is still in the bucket: it is at most the
capacity and what has flowed in since `x` (`Account.spent`).  So in no interval more passes than the
capacity and what flows in during the interval (`Account.bounded`).

* `Account.refill`: time goes by;
* `Account.spend`: a token is taken out.
-/

namespace TokenBucket

variable {α : Type} [Field α] [LinearOrder α]

/-- What is in a bucket, and when it was looked at last. -/
structure Level (α : Type) where
  amount : α
  last : α

/-- What is in the bucket at a later time; what flows over is lost. -/
def Level.refilled (cap rate : α) (l : Level α) (now : α) : α :=
  min cap (l.amount + rate * (now - l.last))

/-- The level of a bucket through which something has passed at the times `admitted`. -/
structure Account (cap rate : α) (admitted : List α) (l : Level α) : Prop where
  nonneg : 0 ≤ l.amount
  le_cap : l.amount ≤ cap
  le_last : ∀ t ∈ admitted, t ≤ l.last
  spent : ∀ x, (admitted.countP fun t => x ≤ t : α) + l.amount ≤ cap + rate * max 0 (l.last - x)
  bounded : ∀ x y, x ≤ y → (admitted.countP fun t => x ≤ t ∧ t ≤ y : α) ≤ cap + rate * (y - x)

namespace Account

variable [IsStrictOrderedRing α] {cap rate now : α} {admitted : List α} {l : Level α}

/-- A new bucket is full. -/
theorem full (hcap : 0 ≤ cap) (hrate : 0 ≤ rate) (now : α) : Account cap rate [] ⟨cap, now⟩ where
  nonneg := hcap
  le_cap := le_rfl
  le_last := nofun
  spent x := by
    have hflow : 0 ≤ rate * max 0 (now - x) := mul_nonneg hrate (le_max_left _ _)
    simpa using hflow
  bounded x y hxy := by
    have hflow : 0 ≤ rate * (y - x) := mul_nonneg hrate (sub_nonneg.mpr hxy)
    simpa using add_nonneg hcap hflow

/-- Time goes by. -/
theorem refill (h : Account cap rate admitted l) (hrate : 0 ≤ rate) (hnow : l.last ≤ now) :
    Account cap rate admitted ⟨l.refilled cap rate now, now⟩ := by
  have hflow : 0 ≤ rate * (now - l.last) := mul_nonneg hrate (sub_nonneg.mpr hnow)
  refine ⟨?_, min_le_left _ _, fun t ht => (h.le_last t ht).trans hnow, fun x => ?_, h.bounded⟩
  · exact le_min (h.nonneg.trans h.le_cap) (add_nonneg h.nonneg hflow)
  · dsimp only
    by_cases hx : x ≤ l.last
    · -- what has flowed in since then is added on both sides
      have hspent := h.spent x
      have hle : l.refilled cap rate now ≤ l.amount + rate * (now - l.last) := min_le_right _ _
      rw [max_eq_right (sub_nonneg.mpr hx)] at hspent
      rw [max_eq_right (sub_nonneg.mpr (hx.trans hnow))]
      linarith
    · -- nothing has passed since then
      have hnone : (admitted.countP fun t => x ≤ t) = 0 := by
        rw [List.countP_eq_zero]
        intro t ht
        rw [decide_eq_true_eq]
        exact fun hxt => hx (hxt.trans (h.le_last t ht))
      have hle : l.refilled cap rate now ≤ cap := min_le_left _ _
      have hmore : 0 ≤ rate * max 0 (now - x) := mul_nonneg hrate (le_max_left _ _)
      rw [hnone, Nat.cast_zero]
      linarith

/-- A token is taken out. -/
theorem spend (h : Account cap rate admitted l) (hrate : 0 ≤ rate) (hone : 1 ≤ l.amount) :
    Account cap rate (admitted ++ [l.last]) ⟨l.amount - 1, l.last⟩ := by
  have hspent : ∀ x, ((admitted ++ [l.last]).countP fun t => x ≤ t : α) + (l.amount - 1) ≤
      cap + rate * max 0 (l.last - x) := by
    intro x
    have hold := h.spent x
    rw [List.countP_append, List.countP_singleton]
    split_ifs
    · rw [Nat.cast_add, Nat.cast_one]
      linarith
    · rw [Nat.add_zero]
      linarith
  refine ⟨sub_nonneg.mpr hone, by linarith [h.le_cap], fun t ht => ?_, hspent, fun x y hxy => ?_⟩
  · rcases List.mem_append.mp ht with ht | ht
    · exact h.le_last t ht
    · exact (List.mem_singleton.mp ht).le
  · by_cases hin : x ≤ l.last ∧ l.last ≤ y
    · -- what has passed in the interval has passed since its start
      have hmono : (admitted ++ [l.last]).countP (fun t => x ≤ t ∧ t ≤ y) ≤
          (admitted ++ [l.last]).countP fun t => x ≤ t :=
        List.countP_mono_left fun t _ ht => by
          rw [decide_eq_true_eq] at ht ⊢
          exact ht.1
      have hcast : ((admitted ++ [l.last]).countP (fun t => x ≤ t ∧ t ≤ y) : α) ≤
          ((admitted ++ [l.last]).countP fun t => x ≤ t : α) := Nat.cast_le.mpr hmono
      have hflow : rate * max 0 (l.last - x) ≤ rate * (y - x) := by
        refine mul_le_mul_of_nonneg_left (max_le (sub_nonneg.mpr hxy) ?_) hrate
        exact sub_le_sub_right hin.2 x
      have hx := hspent x
      linarith
    · have hold := h.bounded x y hxy
      rwa [List.countP_append, List.countP_singleton, if_neg (by simpa using hin), Nat.add_zero]

end Account

end TokenBucket
