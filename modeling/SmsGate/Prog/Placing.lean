import Mathlib.Algebra.Order.Group.Multiset
import Mathlib.Data.Multiset.Filter

/-!
# Items at places

Items come in, and are moved from place to place.  A placing says which items are where; the same
item can be there several times.

* `exists_cons_of_mem_on`: the item that is to be moved;
* `on_cons_self`, `on_cons_of_ne`: what is at each place once it is put somewhere;
* `relocate`: all that is at a place goes to another one;
* `marks`: what is written at some of the places, and how many items that is (`map_marks_le`).
-/

/-- Items at places. -/
abbrev Placing (κ π : Type) := Multiset (κ × π)

namespace Placing

variable {κ π : Type} {L : Placing κ π} {k : κ} {p p' : π}

/-- All items. -/
def items (L : Placing κ π) : Multiset κ := L.map Prod.fst

@[simp]
theorem items_cons : items ((k, p) ::ₘ L) = k ::ₘ items L := Multiset.map_cons _ _ _

section Within

variable (P : π → Prop) [DecidablePred P]

/-- The items at the places of some kind. -/
def within (L : Placing κ π) : Multiset κ := (L.filter fun x => P x.2).map Prod.fst

variable {P}

theorem within_cons_of_pos (hp : P p) : within P ((k, p) ::ₘ L) = k ::ₘ within P L := by
  rw [within, Multiset.filter_cons_of_pos (p := fun x : κ × π => P x.2) L hp, Multiset.map_cons]
  rfl

theorem within_cons_of_neg (hp : ¬ P p) : within P ((k, p) ::ₘ L) = within P L := by
  rw [within, Multiset.filter_cons_of_neg (p := fun x : κ × π => P x.2) L hp]
  rfl

theorem within_cons :
    within P ((k, p) ::ₘ L) = ↑(if P p then [k] else [] : List κ) + within P L := by
  split_ifs with hp
  · rw [within_cons_of_pos hp, Multiset.coe_singleton, Multiset.singleton_add]
  · rw [within_cons_of_neg hp, Multiset.coe_nil, zero_add]

theorem within_le_items : within P L ≤ items L :=
  Multiset.map_le_map (Multiset.filter_le _ L)

end Within

section Marks

variable {β : Type} (f : π → Option β)

/-- What some of the places are marked with. -/
def marks (L : Placing κ π) : Multiset β := L.filterMap fun x => f x.2

theorem marks_cons : marks f ((k, p) ::ₘ L) = ↑(f p).toList + marks f L := by
  cases hp : f p with
  | none =>
    rw [marks, Multiset.filterMap_cons_none (f := fun x : κ × π => f x.2) (k, p) L hp,
      Option.toList_none, Multiset.coe_nil, zero_add]
    rfl
  | some b =>
    rw [marks, Multiset.filterMap_cons_some (fun x : κ × π => f x.2) (k, p) L hp,
      Option.toList_some, Multiset.coe_singleton, Multiset.singleton_add]
    rfl

/-- The marks of some kind are no more than the items at the places that bear them. -/
theorem map_marks_le {γ : Type} (R : β → Prop) [DecidablePred R] (Q : π → Prop) [DecidablePred Q]
    (g : β → γ) (g' : κ → γ)
    (h : ∀ x ∈ L, ∀ b, f x.2 = some b → g b = g' x.1 ∧ (R b → Q x.2)) :
    ((marks f L).filter R).map g ≤ (within Q L).map g' := by
  induction L using Multiset.induction_on with
  | empty => exact le_rfl
  | cons x L ih =>
    obtain ⟨k, p⟩ := x
    have hL := ih fun x hx => h x (Multiset.mem_cons_of_mem hx)
    have hle : (within Q L).map g' ≤ (within Q ((k, p) ::ₘ L)).map g' := by
      rw [within_cons, Multiset.map_add]
      exact Multiset.le_add_left _ _
    rw [marks_cons]
    cases hp : f p with
    | none =>
      rw [Option.toList_none, Multiset.coe_nil, zero_add]
      exact hL.trans hle
    | some b =>
      obtain ⟨hg, hQ⟩ := h (k, p) (Multiset.mem_cons_self _ _) b hp
      rw [Option.toList_some, Multiset.coe_singleton, Multiset.singleton_add]
      by_cases hb : R b
      · rw [Multiset.filter_cons_of_pos _ hb, Multiset.map_cons, hg, within_cons_of_pos (hQ hb),
          Multiset.map_cons]
        exact Multiset.cons_le_cons _ hL
      · rw [Multiset.filter_cons_of_neg _ hb]
        exact hL.trans hle

theorem map_marks_le_items {γ : Type} (g : β → γ) (g' : κ → γ)
    (h : ∀ x ∈ L, ∀ b, f x.2 = some b → g b = g' x.1) :
    (marks f L).map g ≤ (items L).map g' := by
  have hle := map_marks_le f (fun _ => True) (fun _ => True) g g'
    fun x hx b hb => ⟨h x hx b hb, fun _ => trivial⟩
  rw [Multiset.filter_eq_self.mpr fun _ _ => trivial] at hle
  exact hle.trans (Multiset.map_le_map within_le_items)

end Marks

variable [DecidableEq π]

/-- The items at a place. -/
abbrev on (L : Placing κ π) (p : π) : Multiset κ := within (fun r => r = p) L

@[simp]
theorem on_cons_self : on ((k, p) ::ₘ L) p = k ::ₘ L.on p :=
  within_cons_of_pos (P := fun r => r = p) rfl

theorem on_cons_of_ne (hp : p' ≠ p) : on ((k, p') ::ₘ L) p = L.on p :=
  within_cons_of_neg (P := fun r => r = p) hp

/-- An item at a place can be taken from there. -/
theorem exists_cons_of_mem_on (hk : k ∈ L.on p) : ∃ L₀, L = (k, p) ::ₘ L₀ := by
  obtain ⟨⟨k', p'⟩, hfilter, rfl⟩ := Multiset.mem_map.mp hk
  obtain ⟨hmem, hp⟩ := Multiset.mem_filter.mp hfilter
  obtain rfl : p' = p := hp
  exact Multiset.exists_cons_of_mem hmem

/-! ### All that is at a place -/

/-- All that is at place `p` goes to `p'`. -/
def relocate (p p' : π) (L : Placing κ π) : Placing κ π :=
  L.map fun x => if x.2 = p then (x.1, p') else x

theorem relocate_cons_self : relocate p p' ((k, p) ::ₘ L) = (k, p') ::ₘ relocate p p' L := by
  rw [relocate, Multiset.map_cons, if_pos rfl]
  rfl

theorem relocate_cons_of_ne {r : π} (hr : r ≠ p) :
    relocate p p' ((k, r) ::ₘ L) = (k, r) ::ₘ relocate p p' L := by
  rw [relocate, Multiset.map_cons, if_neg hr]
  rfl

@[simp]
theorem items_relocate : items (relocate p p' L) = items L := by
  rw [items, relocate, Multiset.map_map]
  refine Multiset.map_congr rfl fun x _ => ?_
  dsimp only [Function.comp]
  split_ifs <;> rfl

/-- Kinds of places that do not tell the two places apart hold what they held. -/
theorem within_relocate {P : π → Prop} [DecidablePred P] (hP : P p ↔ P p') :
    within P (relocate p p' L) = within P L := by
  induction L using Multiset.induction_on with
  | empty => rfl
  | cons x L ih =>
    obtain ⟨k, r⟩ := x
    by_cases hr : r = p
    · subst hr
      rw [relocate_cons_self, within_cons, within_cons, ih]
      simp only [hP]
    · rw [relocate_cons_of_ne hr, within_cons, within_cons, ih]

theorem marks_relocate {β : Type} {f : π → Option β} (hf : f p = f p') :
    marks f (relocate p p' L) = marks f L := by
  induction L using Multiset.induction_on with
  | empty => rfl
  | cons x L ih =>
    obtain ⟨k, r⟩ := x
    by_cases hr : r = p
    · subst hr
      rw [relocate_cons_self, marks_cons, marks_cons, ih, hf]
    · rw [relocate_cons_of_ne hr, marks_cons, marks_cons, ih]

/-- The place is empty afterwards. -/
theorem on_relocate_self (hp : p' ≠ p) : (relocate p p' L).on p = 0 := by
  induction L using Multiset.induction_on with
  | empty => rfl
  | cons x L ih =>
    obtain ⟨k, r⟩ := x
    by_cases hr : r = p
    · subst hr
      rw [relocate_cons_self, on_cons_of_ne hp, ih]
    · rw [relocate_cons_of_ne hr, on_cons_of_ne hr, ih]

/-- The other one has it all. -/
theorem on_relocate (hp : p' ≠ p) : (relocate p p' L).on p' = L.on p + L.on p' := by
  induction L using Multiset.induction_on with
  | empty => rfl
  | cons x L ih =>
    obtain ⟨k, r⟩ := x
    by_cases hr : r = p
    · subst hr
      rw [relocate_cons_self, on_cons_self, ih, on_cons_self, on_cons_of_ne hp.symm,
        Multiset.cons_add]
    · rw [relocate_cons_of_ne hr, on_cons_of_ne hr]
      by_cases hr' : r = p'
      · subst hr'
        rw [on_cons_self, on_cons_self, ih, Multiset.add_cons]
      · rw [on_cons_of_ne hr', on_cons_of_ne hr', ih]

end Placing
