import Mathlib.Data.List.DropRight
import Mathlib.Data.List.Infix
import Mathlib.Data.List.Perm.Basic

/-!
# A queue that drops its oldest elements

Elements arrive one by one, are held in the hand until they are put at the end of a queue, and are
taken from its front; now and then the front of the queue is dropped for the element in the hand.
`Account` relates what has arrived to where it is now.  Nothing is lost but what was dropped, the
order is kept, and the newest element is never dropped.

`push` is the same for a ring of a fixed size, from which nothing is taken: it holds the last
elements that were pushed (`push_rtake`).
-/

variable {α : Type}

namespace DropOldest

/-- What has arrived was dropped, or was taken, or waits in the queue, or is in the hand. -/
structure Account (arrived dropped taken queue hand : List α) : Prop where
  order : (taken ++ (queue ++ hand)).Sublist arrived
  newest : (taken ++ (queue ++ hand)).getLast? = arrived.getLast?
  count : (dropped ++ (taken ++ (queue ++ hand))).Perm arrived

namespace Account

variable {arrived dropped taken queue hand : List α} {x y : α}

theorem empty : Account ([] : List α) [] [] [] [] :=
  ⟨List.Sublist.refl _, rfl, List.Perm.refl _⟩

/-- An element arrives in an empty hand. -/
theorem arrive (h : Account arrived dropped taken queue []) :
    Account (arrived ++ [x]) dropped taken queue [x] := by
  have hconcat : taken ++ (queue ++ [x]) = taken ++ (queue ++ []) ++ [x] := by simp
  refine ⟨?_, ?_, ?_⟩
  · rw [hconcat]
    exact h.order.append (List.Sublist.refl [x])
  · rw [hconcat, List.getLast?_concat, List.getLast?_concat]
  · rw [hconcat, ← List.append_assoc]
    exact h.count.append_right [x]

/-- It is put into the queue. -/
theorem push (h : Account arrived dropped taken queue [x]) :
    Account arrived dropped taken (queue ++ [x]) [] := by
  have hsame : queue ++ [x] ++ [] = queue ++ [x] := List.append_nil _
  refine ⟨?_, ?_, ?_⟩ <;> rw [hsame]
  · exact h.order
  · exact h.newest
  · exact h.count

/-- The front of the queue is dropped for it. -/
theorem drop (h : Account arrived dropped taken (y :: queue) [x]) :
    Account arrived (dropped ++ [y]) taken queue [x] := by
  have hless : (taken ++ (queue ++ [x])).Sublist (taken ++ (y :: queue ++ [x])) :=
    (List.Sublist.refl taken).append (List.sublist_cons_self y _)
  refine ⟨hless.trans h.order, ?_, ?_⟩
  · have hnewest := h.newest
    rw [← List.append_assoc, List.getLast?_concat] at hnewest ⊢
    exact hnewest
  · have hmiddle : (y :: (taken ++ (queue ++ [x]))).Perm (taken ++ y :: (queue ++ [x])) :=
      List.perm_middle.symm
    rw [List.append_assoc]
    exact (hmiddle.append_left dropped).trans h.count

/-- The front of the queue is taken. -/
theorem take (h : Account arrived dropped taken (y :: queue) hand) :
    Account arrived dropped (taken ++ [y]) queue hand := by
  have hsame : taken ++ [y] ++ (queue ++ hand) = taken ++ (y :: queue ++ hand) := by simp
  refine ⟨?_, ?_, ?_⟩ <;> rw [hsame]
  · exact h.order
  · exact h.newest
  · exact h.count

end Account

/-! ### Rings -/

/-- Put `x` into a ring of size `n`; if it is full, the oldest element makes room. -/
def push (n : ℕ) (ring : List α) (x : α) : List α :=
  (if n ≤ ring.length then ring.drop 1 else ring) ++ [x]

theorem map_push {β : Type} (f : α → β) (n : ℕ) (ring : List α) (x : α) :
    (push n ring x).map f = push n (ring.map f) (f x) := by
  rw [push, push, List.map_append, List.length_map]
  split_ifs
  · rw [List.map_drop]
    rfl
  · rfl

theorem length_rtake (xs : List α) (n : ℕ) : (xs.rtake n).length = min n xs.length := by
  rw [List.rtake, List.length_drop]
  omega

/-- A ring holds the last `n` elements that were pushed. -/
theorem push_rtake {n : ℕ} (hn : 0 < n) (xs : List α) (x : α) :
    push n (xs.rtake n) x = (xs ++ [x]).rtake n := by
  obtain ⟨m, rfl⟩ := Nat.exists_eq_add_one_of_ne_zero hn.ne'
  rw [push, List.rtake_concat_succ, length_rtake]
  congr 1
  split_ifs with hfull
  · rw [List.rtake, List.rtake, List.drop_drop]
    congr 1
    omega
  · rw [List.rtake, List.rtake]
    congr 1
    omega

/-- An element is among the last `n` iff fewer than `n` come behind it. -/
theorem mem_rtake_iff {n : ℕ} {xs : List α} {x : α} :
    x ∈ xs.rtake n ↔ ∃ us vs, xs = us ++ x :: vs ∧ vs.length < n := by
  rw [List.rtake]
  constructor
  · intro hx
    obtain ⟨us, vs, hdrop⟩ := List.mem_iff_append.mp hx
    refine ⟨xs.take (xs.length - n) ++ us, vs, ?_, ?_⟩
    · rw [List.append_assoc, ← hdrop, List.take_append_drop]
    · have hlength := congrArg List.length hdrop
      rw [List.length_drop, List.length_append, List.length_cons] at hlength
      omega
  · rintro ⟨us, vs, rfl, hvs⟩
    have hle : (us ++ x :: vs).length - n ≤ us.length := by
      rw [List.length_append, List.length_cons]
      omega
    rw [List.drop_append_of_le_length hle]
    exact List.mem_append_right _ List.mem_cons_self

end DropOldest
