import SmsGate.Buffer.Equiv.Queue
import Mathlib.Data.List.Pairwise

/-!
# How a table changes

What every statement on `sms_buffer` has in common, whoever runs it: ids only go up, a row keeps its
id and its message as long as it is there, a new row is pending, and a pending row stays so until it
is acknowledged.  `Evolves acked added t t'` says this of one step, where `acked` are the ids that
may be marked as delivered and `added` the messages that may be added.
-/

namespace SmsGate.Buffer

/-- A row is known by its id. -/
theorem Table.eq_of_id (t : Table) {r r' : Row} (hr : r ∈ t.rows) (hr' : r' ∈ t.rows)
    (hid : r.id = r'.id) : r = r' := by
  have hdistinct : t.rows.Pairwise fun r r' => r.id ≠ r'.id := t.sorted.imp fun h => Int.ne_of_lt h
  have hsymm : Std.Symm fun r r' : Row => r.id ≠ r'.id := ⟨fun _ _ h => Ne.symm h⟩
  by_contra hne
  exact hdistinct.forall hr hr' hne hid

/-- An id stands for one message. -/
theorem Table.message_unique (t : Table) {id : ℤ} {m m' : Message}
    (h : ∃ r ∈ t.rows, r.entry = (id, m)) (h' : ∃ r ∈ t.rows, r.entry = (id, m')) : m = m' := by
  obtain ⟨r, hr, hentry⟩ := h
  obtain ⟨r', hr', hentry'⟩ := h'
  have hid : r.id = r'.id := (congrArg Prod.fst hentry).trans (congrArg Prod.fst hentry').symm
  cases t.eq_of_id hr hr' hid
  exact congrArg Prod.snd (hentry.symm.trans hentry')

theorem Table.le_seq_of_entry (t : Table) {id : ℤ} {m : Message}
    (h : ∃ r ∈ t.rows, r.entry = (id, m)) : id ≤ t.seq := by
  obtain ⟨r, hr, hentry⟩ := h
  rw [← show r.id = id from congrArg Prod.fst hentry]
  exact t.id_le r hr

/-- One step of a table. -/
structure Evolves (acked : ℤ → Prop) (added : Message → Prop) (t t' : Table) : Prop where
  seq_le : t.seq ≤ t'.seq
  /-- A row was there before, or is new and pending. -/
  row : ∀ r ∈ t'.rows,
    (∃ r₀ ∈ t.rows, r₀.entry = r.entry ∧
      (r.status = .delivered → r₀.status = .delivered ∨ acked r.id)) ∨
    t.seq < r.id ∧ r.status = .pending ∧ added r.message
  /-- A pending row is still pending, or its id may be marked. -/
  pending : ∀ r ∈ t.rows, r.status = .pending → acked r.id ∨
    ∃ r' ∈ t'.rows, r'.entry = r.entry ∧ r'.status = .pending

namespace Evolves

variable {acked : ℤ → Prop} {added : Message → Prop} {t : Table}

theorem of_rows {t' : Table} (hseq : t.seq ≤ t'.seq) (hrows : t'.rows = t.rows) :
    Evolves acked added t t' where
  seq_le := hseq
  row r hr := by
    rw [hrows] at hr
    exact .inl ⟨r, hr, rfl, fun h => .inl h⟩
  pending r hr hpending := by
    rw [← hrows] at hr
    exact .inr ⟨r, hr, rfl, hpending⟩

theorem refl (t : Table) : Evolves acked added t t := of_rows (Int.le_refl _) rfl

theorem skip (t : Table) : Evolves acked added t t.skip :=
  of_rows (Int.le_add_one (Int.le_refl _)) rfl

theorem push (sec : ℤ) {m : Message} (hm : added m) (hnew : ¬ t.Stores m.pduHash) :
    Evolves acked added t (t.push sec m hnew) where
  seq_le := Int.le_add_one (Int.le_refl _)
  row r hr := by
    rcases List.mem_append.mp hr with hr | hr
    · exact .inl ⟨r, hr, rfl, fun h => .inl h⟩
    · rw [List.mem_singleton.mp hr]
      exact .inr ⟨Int.lt_succ _, rfl, hm⟩
  pending r hr hpending := .inr ⟨r, List.mem_append_left _ hr, rfl, hpending⟩

theorem insert (fault : Fault) (sec : ℤ) {m : Message} (hm : added m) (t : Table) :
    Evolves acked added t (insert fault sec m t).2 := by
  have hpair : Buffer.insert fault sec m t =
      ((Buffer.insert fault sec m t).1, (Buffer.insert fault sec m t).2) := rfl
  rcases insert_cases hpair with ⟨_, _, hsame | ⟨_, hdone⟩⟩ | ⟨_, _, hskip⟩ | ⟨hnew, _, hpush⟩
  · rw [hsame]
    exact refl t
  · rw [hdone, Table.insertOrIgnore]
    split_ifs with hdup
    · exact skip t
    · exact push sec hm hdup
  · rw [hskip]
    exact skip t
  · rw [hpush]
    exact push sec hm hnew

theorem markDelivered (now : ℤ) {id : ℤ} (hid : acked id) (t : Table) :
    Evolves acked added t (markDelivered now id t) where
  seq_le := Int.le_refl _
  row r hr := by
    obtain ⟨r₀, hr₀, rfl⟩ := List.mem_map.mp hr
    refine .inl ⟨r₀, hr₀, ?_⟩
    split_ifs with h
    · refine ⟨rfl, fun _ => .inr ?_⟩
      rw [show r₀.id = id from h]
      exact hid
    · exact ⟨rfl, fun h => .inl h⟩
  pending r hr hpending := by
    by_cases h : r.id = id
    · rw [h]
      exact .inl hid
    · refine .inr ⟨r, List.mem_map.mpr ⟨r, hr, if_neg h⟩, rfl, hpending⟩

theorem purge (cutoff : ℤ) (t : Table) : Evolves acked added t (purge cutoff t).2 where
  seq_le := Int.le_refl _
  row r hr := .inl ⟨r, (List.mem_filter.mp hr).1, rfl, fun h => .inl h⟩
  pending r hr hpending := by
    refine .inr ⟨r, List.mem_filter.mpr ⟨hr, ?_⟩, rfl, hpending⟩
    -- only delivered rows are purged
    simp [hpending]

end Evolves

/-- What an insert that succeeds has done: the hash is stored, and unless a duplicate was reported
the message stands under the id that was returned. -/
theorem row_of_insert_ok {t : Table} {fault : Fault} {sec : ℤ} {m : Message} {id : ℤ} {dup : Bool}
    (h : (insert fault sec m t).1 = .ok (id, dup)) :
    (insert fault sec m t).2.Stores m.pduHash ∧
      (dup = false → ∃ r ∈ (insert fault sec m t).2.rows, r.entry = (id, m)) := by
  have hpair : insert fault sec m t = ((insert fault sec m t).1, (insert fault sec m t).2) := rfl
  rcases insert_cases hpair with ⟨_, herr, _⟩ | ⟨hdup, hstores, hskip⟩ | ⟨hnew, hok, hpush⟩
  · cases herr.symm.trans h
  · cases hdup.symm.trans h
    rw [hskip]
    exact ⟨hstores, nofun⟩
  · cases hok.symm.trans h
    rw [hpush]
    refine ⟨(stores_push hnew).mpr (.inr rfl), fun _ => ⟨t.newRow sec m, ?_, rfl⟩⟩
    exact List.mem_append_right _ (List.mem_singleton_self _)

end SmsGate.Buffer
