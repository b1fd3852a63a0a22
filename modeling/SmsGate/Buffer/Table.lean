import SmsGate.Formats
import Mathlib.Data.Int.Notation

/-!
# The offline buffer (`internal/buffer/buffer.go`)

The table `sms_buffer` and the statements that `Insert`, `MarkDelivered`, `PendingRows` and `Purge`
run on it.  A `Table` carries what SQLite keeps true of it: the rows stand in the order of the
primary key, no key is above the AUTOINCREMENT counter, and no two rows have one `pdu_hash`.

`INSERT OR IGNORE` draws a key from the counter before it finds the conflict, so an ignored insert
leaves the rows alone and the counter one higher.  Row ids are integers of any size; SQLite fails
with an error when its 64 bits are used up.  A database error is a `Fault`: it can strike before or
after the statement was committed, and a statement is committed as a whole or not at all.
-/

namespace SmsGate.Buffer

/-- The values of the column `status`. -/
inductive Status where
  | pending
  | delivered
  deriving DecidableEq

/-- The arguments of `Insert`. -/
structure Message where
  iccid : List UInt8
  sender : List UInt8
  body : List UInt8
  pduHash : List UInt8
  smsc : List UInt8
  /-- In milliseconds. -/
  receivedAt : ℤ
  deriving DecidableEq

/-- A row of `sms_buffer`. -/
structure Row where
  id : ℤ
  message : Message
  status : Status
  /-- In milliseconds, from a clock of seconds. -/
  createdAt : ℤ
  deliveredAt : Option ℤ
  deriving DecidableEq

/-- `sms_buffer`, with its entry in `sqlite_sequence`. -/
structure Table where
  rows : List Row
  seq : ℤ
  sorted : rows.Pairwise fun r r' => r.id < r'.id
  id_le : ∀ r ∈ rows, r.id ≤ seq
  hash_unique : rows.Pairwise fun r r' => r.message.pduHash ≠ r'.message.pduHash

namespace Table

/-- The table of a new database. -/
def empty : Table where
  rows := []
  seq := 0
  sorted := .nil
  id_le := nofun
  hash_unique := .nil

/-- A row with this `pdu_hash` is stored. -/
def Stores (t : Table) (pduHash : List UInt8) : Prop := ∃ r ∈ t.rows, r.message.pduHash = pduHash

instance (t : Table) (pduHash : List UInt8) : Decidable (t.Stores pduHash) :=
  inferInstanceAs (Decidable (∃ r ∈ t.rows, _))

/-- The row that an insert at time `sec` adds. -/
def newRow (t : Table) (sec : ℤ) (m : Message) : Row where
  id := t.seq + 1
  message := m
  status := .pending
  createdAt := sec * 1000
  deliveredAt := none

/-- A table with a new row at the end. -/
def push (t : Table) (sec : ℤ) (m : Message) (h : ¬ t.Stores m.pduHash) : Table where
  rows := t.rows ++ [t.newRow sec m]
  seq := t.seq + 1
  sorted := by
    refine List.pairwise_append.mpr ⟨t.sorted, List.pairwise_singleton _ _, fun r hr r' hr' => ?_⟩
    rw [List.mem_singleton.mp hr']
    exact Int.lt_add_one_of_le (t.id_le r hr)
  id_le r hr := by
    rcases List.mem_append.mp hr with hr | hr
    · exact Int.le_trans (t.id_le r hr) (Int.le_add_one (Int.le_refl _))
    · rw [List.mem_singleton.mp hr]
      exact Int.le_refl _
  hash_unique := by
    refine List.pairwise_append.mpr
      ⟨t.hash_unique, List.pairwise_singleton _ _, fun r hr r' hr' heq => h ⟨r, hr, ?_⟩⟩
    rw [heq, List.mem_singleton.mp hr', newRow]

/-- The counter after an ignored insert. -/
def skip (t : Table) : Table where
  rows := t.rows
  seq := t.seq + 1
  sorted := t.sorted
  id_le r hr := Int.le_trans (t.id_le r hr) (Int.le_add_one (Int.le_refl _))
  hash_unique := t.hash_unique

/-- `INSERT OR IGNORE INTO sms_buffer …`: the table, the last insert id and the number of rows
affected. -/
def insertOrIgnore (t : Table) (sec : ℤ) (m : Message) : Table × ℤ × ℕ :=
  if h : t.Stores m.pduHash then (t.skip, 0, 0) else (t.push sec m h, t.seq + 1, 1)

/-- A change of rows that keeps their keys and hashes. -/
def mapRows (t : Table) (f : Row → Row) (hid : ∀ r, (f r).id = r.id)
    (hhash : ∀ r, (f r).message.pduHash = r.message.pduHash) : Table where
  rows := t.rows.map f
  seq := t.seq
  sorted := by simpa only [List.pairwise_map, hid] using t.sorted
  id_le r hr := by
    obtain ⟨r', hr', rfl⟩ := List.mem_map.mp hr
    rw [hid]
    exact t.id_le r' hr'
  hash_unique := by simpa only [List.pairwise_map, hhash] using t.hash_unique

/-- The rows for which `p` holds. -/
def keep (t : Table) (p : Row → Bool) : Table where
  rows := t.rows.filter p
  seq := t.seq
  sorted := t.sorted.filter p
  id_le r hr := t.id_le r ((List.mem_filter.mp hr).1)
  hash_unique := t.hash_unique.filter p

end Table

/-! ### The methods of `Buffer` -/

/-- Where a database error strikes an insert. -/
inductive Fault where
  | none
  /-- `Exec` fails, with the statement committed or not. -/
  | exec (committed : Bool)
  | lastInsertId
  | rowsAffected
  deriving DecidableEq

/-- The errors of `Insert`. -/
inductive InsertErr where
  | invalidICCID (iccid : List UInt8)
  | exec
  | lastInsertId
  | rowsAffected
  deriving DecidableEq

/-- The text of an error of `Insert`; the wrapped driver error is not spelled out. -/
def InsertErr.message : InsertErr → String
  | invalidICCID _ => "invalid ICCID format"
  | exec => "insert sms"
  | lastInsertId => "insert sms: last insert id"
  | rowsAffected => "insert sms: rows affected"

/-- `Insert`: the row id and whether the message is a duplicate. -/
def insert (fault : Fault) (sec : ℤ) (m : Message) (t : Table) :
    Except InsertErr (ℤ × Bool) × Table :=
  if ¬ validICCID m.iccid then (.error (.invalidICCID m.iccid), t)
  else
    let res := t.insertOrIgnore sec m
    match fault with
    | .exec committed => (.error .exec, if committed then res.1 else t)
    | .lastInsertId => (.error .lastInsertId, res.1)
    | .rowsAffected => (.error .rowsAffected, res.1)
    | .none => if res.2.2 = 0 then (.ok (0, true), res.1) else (.ok (res.2.1, false), res.1)

/-- `MarkDelivered`. -/
def markDelivered (now id : ℤ) (t : Table) : Table :=
  t.mapRows
    (fun r => if r.id = id then { r with status := .delivered, deliveredAt := some now } else r)
    (fun r => by split_ifs <;> rfl) (fun r => by split_ifs <;> rfl)

/-- `SMSRecord`. -/
structure SMSRecord where
  id : ℤ
  message : Message
  status : Status
  deriving DecidableEq

/-- `PendingRows`: the pending rows `ORDER BY id ASC`. -/
def pendingRows (t : Table) : List SMSRecord :=
  ((t.rows.filter fun r => r.status = .pending).mergeSort fun r r' => r.id ≤ r'.id).map fun r =>
    { id := r.id, message := r.message, status := .pending }

/-- `PendingCount`. -/
def pendingCount (t : Table) : ℕ := (t.rows.filter fun r => r.status = .pending).length

/-- `Purge` with its cutoff, `time.Now().AddDate(0, 0, -retentionDays)` in milliseconds: the number
of rows deleted, and the table. -/
def purge (cutoff : ℤ) (t : Table) : ℕ × Table :=
  let old := fun r : Row => decide (r.status = .delivered ∧ r.createdAt < cutoff)
  ((t.rows.filter old).length, t.keep fun r => !old r)

/-! ### What the methods do to the rows -/

theorem pendingRows_eq (t : Table) : pendingRows t =
    (t.rows.filter fun r => r.status = .pending).map fun r =>
      { id := r.id, message := r.message, status := .pending } := by
  have hsorted : (t.rows.filter fun r => r.status = .pending).Pairwise
      fun r r' => decide (r.id ≤ r'.id) = true :=
    (t.sorted.filter _).imp fun h => decide_eq_true (Int.le_of_lt h)
  rw [pendingRows, List.mergeSort_of_pairwise hsorted]

@[simp] theorem rows_markDelivered (now id : ℤ) (t : Table) : (markDelivered now id t).rows =
    t.rows.map fun r =>
      if r.id = id then { r with status := .delivered, deliveredAt := some now } else r := rfl

@[simp] theorem rows_purge (cutoff : ℤ) (t : Table) : (purge cutoff t).2.rows =
    t.rows.filter fun r => !decide (r.status = .delivered ∧ r.createdAt < cutoff) := rfl

/-- What an insert can do, by its answer. -/
theorem insert_cases {fault : Fault} {sec : ℤ} {m : Message} {t t' : Table}
    {res : Except InsertErr (ℤ × Bool)} (h : insert fault sec m t = (res, t')) :
    (∃ e, res = .error e ∧ (t' = t ∨ fault ≠ .none ∧ t' = (t.insertOrIgnore sec m).1)) ∨
    (res = .ok (0, true) ∧ t.Stores m.pduHash ∧ t' = t.skip) ∨
    (∃ hnew, res = .ok (t.seq + 1, false) ∧ t' = t.push sec m hnew) := by
  unfold insert at h
  by_cases hvalid : ¬ validICCID m.iccid
  · rw [if_pos hvalid] at h
    cases h
    exact .inl ⟨_, rfl, .inl rfl⟩
  · rw [if_neg hvalid] at h
    cases fault with
    | exec committed =>
      cases h
      refine .inl ⟨_, rfl, ?_⟩
      cases committed
      · exact .inl rfl
      · exact .inr ⟨nofun, rfl⟩
    | lastInsertId => cases h; exact .inl ⟨_, rfl, .inr ⟨nofun, rfl⟩⟩
    | rowsAffected => cases h; exact .inl ⟨_, rfl, .inr ⟨nofun, rfl⟩⟩
    | none =>
      unfold Table.insertOrIgnore at h
      by_cases hdup : t.Stores m.pduHash
      · rw [dif_pos hdup] at h
        cases h
        exact .inr (.inl ⟨rfl, hdup, rfl⟩)
      · rw [dif_neg hdup] at h
        cases h
        exact .inr (.inr ⟨hdup, rfl, rfl⟩)

/-! ### Which hashes are stored -/

section Stores

variable {t : Table} {hash : List UInt8}

theorem stores_push {sec : ℤ} {m : Message} (hnew : ¬ t.Stores m.pduHash) :
    (t.push sec m hnew).Stores hash ↔ t.Stores hash ∨ m.pduHash = hash := by
  constructor
  · rintro ⟨r, hr, hhash⟩
    rcases List.mem_append.mp hr with hr | hr
    · exact .inl ⟨r, hr, hhash⟩
    · rw [List.mem_singleton.mp hr] at hhash
      exact .inr hhash
  · rintro (⟨r, hr, hhash⟩ | hhash)
    · exact ⟨r, List.mem_append_left _ hr, hhash⟩
    · exact ⟨t.newRow sec m, List.mem_append_right _ (List.mem_singleton_self _), hhash⟩

theorem stores_insertOrIgnore {sec : ℤ} {m : Message} (h : t.Stores hash) :
    (t.insertOrIgnore sec m).1.Stores hash := by
  unfold Table.insertOrIgnore
  split_ifs with hdup
  · exact h
  · exact (stores_push hdup).mpr (.inl h)

/-- An insert loses no row. -/
theorem stores_insert {fault : Fault} {sec : ℤ} {m : Message} (h : t.Stores hash) :
    (insert fault sec m t).2.Stores hash := by
  have hpair : insert fault sec m t = ((insert fault sec m t).1, (insert fault sec m t).2) := rfl
  rcases insert_cases hpair with
    ⟨_, _, hsame | ⟨_, hdone⟩⟩ | ⟨_, _, hskip⟩ | ⟨hnew, _, hpush⟩
  · rwa [hsame]
  · rw [hdone]
    exact stores_insertOrIgnore h
  · rw [hskip]
    exact h
  · rw [hpush]
    exact (stores_push hnew).mpr (.inl h)

theorem stores_markDelivered {now id : ℤ} (h : t.Stores hash) :
    (markDelivered now id t).Stores hash := by
  obtain ⟨r, hr, hhash⟩ := h
  rw [Table.Stores, rows_markDelivered]
  refine ⟨_, List.mem_map_of_mem hr, ?_⟩
  split_ifs <;> exact hhash

/-- No two rows have one hash. -/
theorem length_rows_with_hash_le (t : Table) (hash : List UInt8) :
    (t.rows.filter fun r => r.message.pduHash = hash).length ≤ 1 := by
  have hunique := t.hash_unique.filter fun r => decide (r.message.pduHash = hash)
  have hhash : ∀ r ∈ t.rows.filter fun r => r.message.pduHash = hash, r.message.pduHash = hash :=
    fun r hr => of_decide_eq_true (List.mem_filter.mp hr).2
  generalize (t.rows.filter fun r => r.message.pduHash = hash) = rows at hunique hhash ⊢
  match rows with
  | [] => exact Nat.zero_le 1
  | [_] => exact Nat.le_refl 1
  | r :: r' :: rs =>
    have hmem : r' ∈ r' :: rs := List.mem_cons_self
    have hne := List.rel_of_pairwise_cons hunique hmem
    rw [hhash r List.mem_cons_self, hhash r' (List.mem_cons_of_mem r hmem)] at hne
    exact absurd rfl hne

end Stores

end SmsGate.Buffer
