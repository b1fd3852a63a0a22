import Mathlib.Data.List.Nodup
import Mathlib.Data.List.Perm.Basic

/-!
# Custody of items

Items are issued once and then wait in a queue, are held by whoever took them out of it, or are
done.  `Custody issued done held queue` says that every item issued is in exactly one of these
places, and there once.

* `Custody.issue`, `Custody.take`, `Custody.finish`: the three ways in which an item moves;
* `Custody.not_mem_done`, `Custody.count_eq_one_iff`: an item that waits is not done, and what is
  done is done exactly once.
-/

/-- Every item issued is done, held or in the queue, in one of these places and there once. -/
structure Custody {κ : Type} (issued done held queue : List κ) : Prop where
  nodup : issued.Nodup
  perm : issued.Perm (done ++ held ++ queue)

namespace Custody

variable {κ : Type} {issued done held queue : List κ} {k : κ}

theorem empty : Custody ([] : List κ) [] [] [] where
  nodup := .nil
  perm := .refl _

/-- A new item goes to the end of the queue. -/
theorem issue (h : Custody issued done held queue) (hk : k ∉ issued) :
    Custody (issued ++ [k]) done held (queue ++ [k]) where
  nodup := h.nodup.append (List.nodup_singleton k) (List.disjoint_singleton.mpr hk)
  perm := by
    rw [← List.append_assoc]
    exact h.perm.append_right [k]

/-- The first item of the queue is taken by somebody who holds nothing. -/
theorem take (h : Custody issued done [] (k :: queue)) : Custody issued done [k] queue where
  nodup := h.nodup
  perm := by
    have hperm := h.perm
    rwa [List.append_nil, ← List.singleton_append, ← List.append_assoc] at hperm

/-- The item that is held is done. -/
theorem finish (h : Custody issued done [k] queue) : Custody issued (done ++ [k]) [] queue where
  nodup := h.nodup
  perm := by
    rw [List.append_nil]
    exact h.perm

theorem mem_iff (h : Custody issued done held queue) :
    k ∈ issued ↔ k ∈ done ∨ k ∈ held ∨ k ∈ queue := by
  rw [h.perm.mem_iff, List.mem_append, List.mem_append, or_assoc]

theorem nodup_places (h : Custody issued done held queue) : (done ++ held ++ queue).Nodup :=
  h.perm.nodup_iff.mp h.nodup

/-- What waits is not done. -/
theorem not_mem_done (h : Custody issued done held queue) (hk : k ∈ queue) : k ∉ done := by
  intro hdone
  exact (List.nodup_append'.mp h.nodup_places).2.2 (List.mem_append_left held hdone) hk

/-- What is done is done exactly once. -/
theorem count_eq_one_iff [DecidableEq κ] (h : Custody issued done held queue) :
    done.count k = 1 ↔ k ∈ done := by
  have hdone : done.Nodup := h.nodup_places.of_append_left.of_append_left
  constructor
  · intro hcount
    rw [← List.count_pos_iff, hcount]
    exact Nat.one_pos
  · exact List.count_eq_one_of_mem hdone

end Custody
