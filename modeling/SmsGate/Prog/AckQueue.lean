import Mathlib.Tactic.Common

/-!
# Acknowledged queues

A queue that keeps what it accepted until it is acknowledged, seen from outside: a history is a
list of events, an entry accepted under an id or an acknowledgement of an id.  What the queue owes
at the end of a history (`outstanding`) are the entries that were not acknowledged since, in the
order in which they were accepted.  An acknowledgement that comes before its entry counts for
nothing.

* `outstanding_append_accept`, `outstanding_append_ack`: what one more event changes.
-/

namespace AckQueue

variable {ι α : Type} [DecidableEq ι]

/-- What happens to a queue. -/
inductive Event (ι α : Type) where
  | accept (id : ι) (a : α)
  | ack (id : ι)
  deriving DecidableEq

/-- The event acknowledges `id`. -/
def Event.acks (id : ι) : Event ι α → Bool
  | accept _ _ => false
  | ack id' => id' == id

/-- The entries accepted in a history. -/
def accepted : List (Event ι α) → List (ι × α)
  | [] => []
  | .accept id a :: tr => (id, a) :: accepted tr
  | .ack _ :: tr => accepted tr

/-- The entries accepted in a history and not acknowledged since. -/
def outstanding : List (Event ι α) → List (ι × α)
  | [] => []
  | .accept id a :: tr =>
    if tr.any (Event.acks id) then outstanding tr else (id, a) :: outstanding tr
  | .ack _ :: tr => outstanding tr

omit [DecidableEq ι] in
theorem accepted_append (tr tr' : List (Event ι α)) :
    accepted (tr ++ tr') = accepted tr ++ accepted tr' := by
  induction tr with
  | nil => rfl
  | cons e tr ih => cases e <;> simp only [List.cons_append, accepted, ih]

theorem outstanding_append_accept (tr : List (Event ι α)) (id : ι) (a : α) :
    outstanding (tr ++ [.accept id a]) = outstanding tr ++ [(id, a)] := by
  induction tr with
  | nil => rfl
  | cons e tr ih =>
    cases e with
    | accept id' a' =>
      -- the new event acknowledges nothing
      have hany : (tr ++ [Event.accept id a]).any (Event.acks id') = tr.any (Event.acks id') := by
        rw [List.any_append]
        simp [Event.acks]
      simp only [List.cons_append, outstanding, hany, ih]
      split_ifs <;> rfl
    | ack id' => simp only [List.cons_append, outstanding, ih]

theorem outstanding_append_ack (tr : List (Event ι α)) (id : ι) :
    outstanding (tr ++ [.ack id]) = (outstanding tr).filter fun p => p.1 ≠ id := by
  induction tr with
  | nil => rfl
  | cons e tr ih =>
    cases e with
    | accept id' a' =>
      have hany : (tr ++ [Event.ack id]).any (Event.acks id') =
          (tr.any (Event.acks id') || id == id') := by
        rw [List.any_append]
        simp [Event.acks]
      simp only [List.cons_append, outstanding, hany, ih]
      by_cases hid : id' = id
      · subst hid
        cases tr.any (Event.acks id') <;> simp
      · have hne : (id == id') = false := beq_false_of_ne (Ne.symm hid)
        cases tr.any (Event.acks id') <;> simp [hid, hne]
    | ack id' => simp only [List.cons_append, outstanding, ih]

end AckQueue
