import SmsGate.Buffer.Table
import SmsGate.Prog.AckQueue

/-!
# The buffer is an acknowledged queue

Inserts, acknowledgements and purges in any order, with any clock.  `AckDelivered` of the tunnel
takes the channel of a waiting flush out of its map, closes it, and marks the row.

`Run` keeps the history next to the table, and `Refines` ties the two together: the pending rows
are what the queue owes, every stored row is an accepted entry, and ids only go up.  One lemma for
each operation (`Refines.push`, `Refines.markDelivered`, `Refines.purge`), one for whole runs
(`refines_run`), and the result is `pendingRows_run`.
-/

namespace SmsGate.Buffer

open AckQueue

/-- The entries of `pending` in the tunnel manager, and the channels closed so far. -/
structure PendingAcks where
  /-- Buffer id and channel. -/
  entries : List (ℤ × ℕ)
  closed : List ℕ
  deriving DecidableEq

/-- What `AckDelivered` and the buffer's methods work on. -/
structure Store where
  acks : PendingAcks
  table : Table

/-- `AckDelivered`: close the channel that waits for the id, if there is one, and mark the row. -/
def ackDelivered (now bufferID : ℤ) (s : Store) : Store where
  acks :=
    match s.acks.entries.lookup bufferID with
    | some ch =>
      { entries := s.acks.entries.filter fun p => p.1 ≠ bufferID, closed := ch :: s.acks.closed }
    | none => s.acks
  table := markDelivered now bufferID s.table

/-- The operations of a run, with what the clock says. -/
inductive Op where
  | insert (sec : ℤ) (m : Message)
  | ack (now id : ℤ)
  | purge (cutoff : ℤ)

/-- One operation without database errors, and what the queue sees of it. -/
def step (s : Store) : Op → Store × List (Event ℤ Message)
  | .insert sec m =>
    let res := insert .none sec m s.table
    ({ s with table := res.2 },
      match res.1 with
      | .ok (id, false) => [.accept id m]
      | _ => [])
  | .ack now id => (ackDelivered now id s, [.ack id])
  | .purge cutoff => ({ s with table := (purge cutoff s.table).2 }, [])

/-- A run from the table of a new database, with its history. -/
def run (acks : PendingAcks) (ops : List Op) : Store × List (Event ℤ Message) :=
  ops.foldl (fun p op => ((step p.1 op).1, p.2 ++ (step p.1 op).2)) (⟨acks, Table.empty⟩, [])

/-! ### The refinement -/

/-- The id and message of a row. -/
def Row.entry (r : Row) : ℤ × Message := (r.id, r.message)

/-- The table agrees with the history. -/
structure Refines (t : Table) (tr : List (Event ℤ Message)) : Prop where
  /-- The pending rows are what the queue owes. -/
  pending_eq : (t.rows.filter fun r => r.status = .pending).map Row.entry = outstanding tr
  /-- Every row was accepted under its id. -/
  mem_accepted : ∀ r ∈ t.rows, r.entry ∈ accepted tr
  /-- Ids are handed out in ascending order, none above the counter. -/
  ascending : (accepted tr).Pairwise fun p p' => p.1 < p'.1
  accepted_le : ∀ p ∈ accepted tr, p.1 ≤ t.seq

theorem refines_empty : Refines Table.empty [] where
  pending_eq := rfl
  mem_accepted := nofun
  ascending := .nil
  accepted_le := nofun

theorem Refines.skip {t : Table} {tr : List (Event ℤ Message)} (h : Refines t tr) :
    Refines t.skip tr where
  pending_eq := h.pending_eq
  mem_accepted := h.mem_accepted
  ascending := h.ascending
  accepted_le p hp := Int.le_trans (h.accepted_le p hp) (Int.le_add_one (Int.le_refl _))

theorem Refines.push {t : Table} {tr : List (Event ℤ Message)} (h : Refines t tr) (sec : ℤ)
    {m : Message} (hnew : ¬ t.Stores m.pduHash) :
    Refines (t.push sec m hnew) (tr ++ [.accept (t.seq + 1) m]) where
  pending_eq := by
    rw [outstanding_append_accept, ← h.pending_eq, Table.push, List.filter_append, List.map_append]
    rfl
  mem_accepted r hr := by
    rw [accepted_append]
    rcases List.mem_append.mp hr with hr | hr
    · exact List.mem_append_left _ (h.mem_accepted r hr)
    · rw [List.mem_singleton.mp hr]
      exact List.mem_append_right _ (List.mem_singleton.mpr rfl)
  ascending := by
    rw [accepted_append]
    refine List.pairwise_append.mpr
      ⟨h.ascending, List.pairwise_singleton _ _, fun p hp p' hp' => ?_⟩
    rw [List.mem_singleton.mp hp']
    exact Int.lt_add_one_of_le (h.accepted_le p hp)
  accepted_le p hp := by
    rw [accepted_append] at hp
    rcases List.mem_append.mp hp with hp | hp
    · exact Int.le_trans (h.accepted_le p hp) (Int.le_add_one (Int.le_refl _))
    · rw [List.mem_singleton.mp hp]
      exact Int.le_refl _

theorem Refines.markDelivered {t : Table} {tr : List (Event ℤ Message)} (h : Refines t tr)
    (now id : ℤ) : Refines (markDelivered now id t) (tr ++ [.ack id]) := by
  have hacc : accepted (tr ++ [.ack id]) = accepted tr := by
    rw [accepted_append, accepted, accepted, List.append_nil]
  refine ⟨?_, ?_, hacc ▸ h.ascending, hacc ▸ h.accepted_le⟩
  · rw [outstanding_append_ack, ← h.pending_eq, rows_markDelivered]
    -- a marked row leaves the filter, every other row is as before
    induction t.rows with
    | nil => rfl
    | cons r rs ih =>
      rw [List.map_cons]
      by_cases hid : r.id = id
      · rw [if_pos hid, List.filter_cons_of_neg (by simp), ih]
        by_cases hp : r.status = .pending
        · rw [List.filter_cons_of_pos (by simpa using hp), List.map_cons,
            List.filter_cons_of_neg (by simp [Row.entry, hid])]
        · rw [List.filter_cons_of_neg (by simpa using hp)]
      · rw [if_neg hid]
        by_cases hp : r.status = .pending
        · rw [List.filter_cons_of_pos (by simpa using hp),
            List.filter_cons_of_pos (by simpa using hp), List.map_cons, List.map_cons,
            List.filter_cons_of_pos (by simp [Row.entry, hid]), ih]
        · rw [List.filter_cons_of_neg (by simpa using hp),
            List.filter_cons_of_neg (by simpa using hp), ih]
  · intro r hr
    rw [hacc]
    obtain ⟨r', hr', rfl⟩ := List.mem_map.mp hr
    have hentry := h.mem_accepted r' hr'
    split_ifs <;> exact hentry

theorem Refines.purge {t : Table} {tr : List (Event ℤ Message)} (h : Refines t tr) (cutoff : ℤ) :
    Refines (purge cutoff t).2 tr := by
  refine ⟨?_, fun r hr => h.mem_accepted r (List.mem_filter.mp hr).1, h.ascending, h.accepted_le⟩
  rw [← h.pending_eq, rows_purge, List.filter_filter]
  congr 1
  refine List.filter_congr fun r _ => ?_
  -- only delivered rows are purged
  by_cases hp : r.status = .pending <;> simp [hp]

theorem refines_step {s : Store} {tr : List (Event ℤ Message)} (h : Refines s.table tr) (op : Op) :
    Refines (step s op).1.table (tr ++ (step s op).2) := by
  cases op with
  | insert sec m =>
    have hcases : insert .none sec m s.table =
        ((insert .none sec m s.table).1, (insert .none sec m s.table).2) := rfl
    unfold step
    rcases insert_cases hcases with ⟨e, hres, ht⟩ | ⟨hres, -, ht⟩ | ⟨hnew, hres, ht⟩
    · simp only [hres, List.append_nil]
      rcases ht with ht | ⟨hfault, -⟩
      · rwa [ht]
      · exact absurd rfl hfault
    · simp only [hres, ht, List.append_nil]
      exact h.skip
    · simp only [hres, ht]
      exact h.push sec hnew
  | ack now id => exact h.markDelivered now id
  | purge cutoff =>
    rw [step, List.append_nil]
    exact h.purge cutoff

theorem refines_run (acks : PendingAcks) (ops : List Op) :
    Refines (run acks ops).1.table (run acks ops).2 := by
  have hfold : ∀ (ops : List Op) (p : Store × List (Event ℤ Message)), Refines p.1.table p.2 →
      Refines (ops.foldl (fun p op => ((step p.1 op).1, p.2 ++ (step p.1 op).2)) p).1.table
        (ops.foldl (fun p op => ((step p.1 op).1, p.2 ++ (step p.1 op).2)) p).2 := by
    intro ops
    induction ops with
    | nil => exact fun p hp => hp
    | cons op ops ih => exact fun p hp => ih _ (refines_step hp op)
  exact hfold ops _ refines_empty

/-! ### Inserts -/

/-- A duplicate is reported exactly when the hash is stored. -/
theorem insert_duplicate_iff {m : Message} (hm : validICCID m.iccid) (sec : ℤ) (t : Table) :
    (insert .none sec m t).1 = .ok (0, true) ↔ t.Stores m.pduHash := by
  unfold insert Table.insertOrIgnore
  rw [if_neg (not_not.mpr hm)]
  by_cases hdup : t.Stores m.pduHash
  · simp [hdup]
  · simp [hdup]

/-- An insert that reports a duplicate leaves the rows alone. -/
theorem rows_insert_of_duplicate {m : Message} {sec : ℤ} {t : Table}
    (h : (insert .none sec m t).1 = .ok (0, true)) : (insert .none sec m t).2.rows = t.rows := by
  have hcases : insert .none sec m t = ((insert .none sec m t).1, (insert .none sec m t).2) := rfl
  rcases insert_cases hcases with ⟨e, hres, -⟩ | ⟨-, -, ht⟩ | ⟨hnew, hres, -⟩
  · rw [h] at hres
    cases hres
  · rw [ht]
    rfl
  · rw [h] at hres
    injection hres with hpair
    exact Bool.noConfusion (congrArg Prod.snd hpair)

/-! ### The result -/

/-- **The offline buffer is an acknowledged queue.**  After any sequence of inserts,
acknowledgements and purges: `PendingRows` is what the history owes, in ascending order of ids;
ids go strictly up over the whole history, so none is used twice; an insert reports a duplicate
exactly when the hash is stored, and then changes no row; and an acknowledgement changes no row but
the one whose message was accepted under its id. -/
theorem pendingRows_run (acks : PendingAcks) (ops : List Op) :
    let s := (run acks ops).1
    let tr := (run acks ops).2
    (pendingRows s.table).map (fun r => (r.id, r.message)) = outstanding tr ∧
    (pendingRows s.table).Pairwise (fun r r' => r.id < r'.id) ∧
    (accepted tr).Pairwise (fun p p' => p.1 < p'.1) ∧
    (∀ sec m, validICCID m.iccid →
      ((insert .none sec m s.table).1 = .ok (0, true) ↔ s.table.Stores m.pduHash) ∧
      ((insert .none sec m s.table).1 = .ok (0, true) →
        (insert .none sec m s.table).2.rows = s.table.rows)) ∧
    (∀ now id, ∀ r ∈ s.table.rows, r ∈ (ackDelivered now id s).table.rows ∨
      r.id = id ∧ (id, r.message) ∈ accepted tr) := by
  have h := refines_run acks ops
  refine ⟨?_, ?_, h.ascending, ?_, ?_⟩
  · rw [← h.pending_eq, pendingRows_eq, List.map_map]
    rfl
  · rw [pendingRows_eq, List.pairwise_map]
    exact (run acks ops).1.table.sorted.filter _
  · exact fun sec m hm => ⟨insert_duplicate_iff hm sec _, rows_insert_of_duplicate⟩
  · intro now id r hr
    by_cases hid : r.id = id
    · exact .inr ⟨hid, hid ▸ h.mem_accepted r hr⟩
    · refine .inl (List.mem_map.mpr ⟨r, hr, ?_⟩)
      rw [if_neg hid]

end SmsGate.Buffer
