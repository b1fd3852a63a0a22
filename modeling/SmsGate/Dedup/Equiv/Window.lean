import SmsGate.Dedup.Dedup
import SmsGate.Prog.DropOldest

/-!
# What counts as a duplicate

A call that is no duplicate is recorded in the ring.  So the ring holds the last recorded calls
(`Remembers`), expired ones among them, and possibly several of one message; every call keeps this
(`Remembers.isDuplicate`).  Whether a message is a duplicate can then be told from the calls and
their answers alone (`isDuplicate_iff`).
-/

namespace SmsGate.Dedup

open Object DropOldest

variable {sum256 : List UInt8 → List UInt8}

/-- The entry that a call leaves. -/
def entryOf (sum256 : List UInt8 → List UInt8) (c : Call) : Entry :=
  ⟨fingerprint sum256 c.message, c.now⟩

/-! ### One call -/

/-- There is an entry for the message of a call that has not expired. -/
def Live (sum256 : List UInt8 → List UInt8) (d : Dedup) (c : Call) : Prop :=
  ∃ e ∈ d.entries, e.key = fingerprint sum256 c.message ∧ c.now - e.ts < d.window

variable {d : Dedup} {c : Call}

theorem live_iff : Live sum256 d c ↔ d.entries.any fun e =>
    e.key = fingerprint sum256 c.message ∧ c.now - e.ts < d.window := by
  simp [Live]

theorem isDuplicate_of_live (h : Live sum256 d c) : d.isDuplicate sum256 c = (true, d) :=
  if_pos (live_iff.mp h)

theorem isDuplicate_of_not_live (hd : 0 ≤ d.maxSize) (h : ¬ Live sum256 d c) :
    d.isDuplicate sum256 c =
      (false, { d with entries := push d.maxSize.toNat d.entries (entryOf sum256 c) }) := by
  have hfull : d.maxSize ≤ d.entries.length ↔ d.maxSize.toNat ≤ d.entries.length := by omega
  unfold isDuplicate push
  dsimp only
  rw [if_neg (mt live_iff.mpr h)]
  simp only [hfull]
  rfl

/-! ### What the ring holds -/

/-- The calls that were no duplicates. -/
def recorded (past : List (Call × Bool)) : List Call :=
  (past.filter fun p => p.2 = false).map Prod.fst

theorem recorded_concat_true (past : List (Call × Bool)) (c : Call) :
    recorded (past ++ [(c, true)]) = recorded past := by
  simp [recorded]

theorem recorded_concat_false (past : List (Call × Bool)) (c : Call) :
    recorded (past ++ [(c, false)]) = recorded past ++ [c] := by
  simp [recorded]

/-- Where a recorded call stands. -/
theorem recorded_eq_append_cons_iff {past : List (Call × Bool)} {x : Call} {n : ℕ} :
    (∃ us vs, recorded past = us ++ x :: vs ∧ vs.length < n) ↔
      ∃ us vs, past = us ++ (x, false) :: vs ∧ vs.countP (fun p => p.2 = false) < n := by
  constructor
  · rintro ⟨us, vs, hsplit, hvs⟩
    obtain ⟨ps, qs, hfilter, rfl, hqs⟩ := List.map_eq_append_iff.mp hsplit
    obtain ⟨⟨y, dup⟩, qs, rfl, rfl, rfl⟩ := List.map_eq_cons_iff.mp hqs
    obtain ⟨us, rest, rfl, rfl, hrest⟩ := List.filter_eq_append_iff.mp hfilter
    obtain ⟨ws, vs, rfl, -, hdup, rfl⟩ := List.filter_eq_cons_iff.mp hrest
    obtain rfl : dup = false := of_decide_eq_true hdup
    refine ⟨us ++ ws, vs, (List.append_assoc _ _ _).symm, ?_⟩
    rwa [List.countP_eq_length_filter, ← List.length_map Prod.fst]
  · rintro ⟨us, vs, rfl, hvs⟩
    refine ⟨recorded us, recorded vs, ?_, ?_⟩
    · simp [recorded]
    · rwa [recorded, List.length_map, ← List.countP_eq_length_filter]

/-- The ring holds the entries of the last `n` calls that were recorded. -/
structure Remembers (sum256 : List UInt8 → List UInt8) (n : ℕ) (window : ℤ)
    (past : List (Call × Bool)) (d : Dedup) : Prop where
  maxSize : d.maxSize = n
  window : d.window = window
  entries : d.entries = ((recorded past).rtake n).map (entryOf sum256)

variable {n : ℕ} {window : ℤ} {past : List (Call × Bool)}

theorem remembers_new (hn : 1 ≤ n) : Remembers sum256 n window [] (new n window) where
  maxSize := if_neg (by omega)
  window := rfl
  entries := by
    rw [recorded, List.filter_nil, List.map_nil, List.rtake_nil]
    rfl

namespace Remembers

theorem length_le (h : Remembers sum256 n window past d) : d.entries.length ≤ n := by
  rw [h.entries, List.length_map, length_rtake]
  exact Nat.min_le_left _ _

/-- The ring after a call that is no duplicate. -/
theorem isDuplicate_eq (h : Remembers sum256 n window past d) (hlive : ¬ Live sum256 d c) :
    d.isDuplicate sum256 c =
      (false, { d with entries := push n d.entries (entryOf sum256 c) }) := by
  rw [isDuplicate_of_not_live (by rw [h.maxSize]; exact Int.natCast_nonneg n) hlive, h.maxSize]
  rfl

/-- A call keeps it. -/
theorem isDuplicate (h : Remembers sum256 n window past d) (hn : 1 ≤ n) (c : Call) :
    Remembers sum256 n window (past ++ [(c, (d.isDuplicate sum256 c).1)])
      (d.isDuplicate sum256 c).2 := by
  by_cases hlive : Live sum256 d c
  · rw [isDuplicate_of_live hlive]
    refine ⟨h.maxSize, h.window, ?_⟩
    rw [recorded_concat_true]
    exact h.entries
  · rw [h.isDuplicate_eq hlive]
    refine ⟨h.maxSize, h.window, ?_⟩
    rw [recorded_concat_false, ← push_rtake hn, map_push, ← h.entries]

/-- A message is live iff the last recorded calls tell so. -/
theorem live_iff (h : Remembers sum256 n window past d)
    (hprint : ∀ p ∈ past, fingerprint sum256 p.1.message = fingerprint sum256 c.message →
      p.1.message = c.message) :
    Live sum256 d c ↔
      ∃ us x vs, past = us ++ (x, false) :: vs ∧ x.message = c.message ∧ c.now - x.now < window ∧
        vs.countP (fun p => p.2 = false) < n := by
  unfold Live
  rw [h.entries, h.window]
  constructor
  · rintro ⟨e, he, hkey, hnow⟩
    obtain ⟨x, hx, rfl⟩ := List.mem_map.mp he
    obtain ⟨us, vs, hpast, hvs⟩ := recorded_eq_append_cons_iff.mp (mem_rtake_iff.mp hx)
    have hmem : (x, false) ∈ past := by
      rw [hpast]
      exact List.mem_append_right us List.mem_cons_self
    exact ⟨us, x, vs, hpast, hprint _ hmem hkey, hnow, hvs⟩
  · rintro ⟨us, x, vs, hpast, hmessage, hnow, hvs⟩
    have hx := mem_rtake_iff.mpr (recorded_eq_append_cons_iff.mpr ⟨us, vs, hpast, hvs⟩)
    exact ⟨entryOf sum256 x, List.mem_map_of_mem hx,
      congrArg (fingerprint sum256) hmessage, hnow⟩

/-- The entries are in the order of their times. -/
theorem sorted (h : Remembers sum256 n window past d)
    (htimes : past.Pairwise fun p q => p.1.now ≤ q.1.now) :
    d.entries.Pairwise fun e e' => e.ts ≤ e'.ts := by
  rw [h.entries, List.pairwise_map]
  have hrecorded : (recorded past).Pairwise fun x y => x.now ≤ y.now := by
    rw [recorded, List.pairwise_map]
    exact htimes.filter _
  exact hrecorded.drop

/-- What is evicted is the oldest entry of a full ring. -/
theorem oldest_of_count_lt (h : Remembers sum256 n window past d)
    (htimes : past.Pairwise fun p q => p.1.now ≤ q.1.now) {e : Entry}
    (hlt : (d.isDuplicate sum256 c).2.entries.count e < d.entries.count e) :
    d.entries.length = n ∧ ∀ e' ∈ d.entries, e.ts ≤ e'.ts := by
  have hlive : ¬ Live sum256 d c := by
    intro hlive
    rw [isDuplicate_of_live hlive] at hlt
    exact lt_irrefl _ hlt
  rw [h.isDuplicate_eq hlive] at hlt
  dsimp only at hlt
  rw [push, List.count_append] at hlt
  split_ifs at hlt with hfull
  · refine ⟨le_antisymm h.length_le hfull, ?_⟩
    have hsorted := h.sorted htimes
    cases hentries : d.entries with
    | nil =>
      rw [hentries] at hlt
      exact absurd hlt (Nat.not_lt_zero _)
    | cons e₀ rest =>
      rw [hentries] at hlt hsorted
      -- only the front of the ring has gone
      have he : e₀ = e := by
        by_contra hne
        rw [List.count_cons_of_ne hne, List.drop_one, List.tail_cons] at hlt
        omega
      subst he
      intro e' he'
      rcases List.mem_cons.mp he' with rfl | he'
      · exact le_rfl
      · exact (List.pairwise_cons.mp hsorted).1 e' he'
  · omega

end Remembers

/-! ### The main result -/

theorem remembers_run (sum256 : List UInt8 → List UInt8) (hn : 1 ≤ n) (window : ℤ)
    (calls : List Call) :
    Remembers sum256 n window (answers sum256 n window calls) (run sum256 n window calls) :=
  invariant (isDuplicate sum256) (fun _ _ => True) _ (remembers_new hn)
    (fun _ _ c _ h => h.isDuplicate hn c) (List.pairwise_of_forall fun _ _ => trivial)

theorem run_concat (sum256 : List UInt8 → List UInt8) (maxSize window : ℤ) (calls : List Call)
    (c : Call) : run sum256 maxSize window (calls ++ [c]) =
      ((run sum256 maxSize window calls).isDuplicate sum256 c).2 :=
  after_append _ _ calls [c]

/-- **The deduplication window.**  After any calls at non-decreasing times, of messages that their
fingerprints tell apart, a call returns true iff an earlier call with the same message returned
false less than the window ago, and fewer than `n` calls have returned false since.  The ring never
holds more than `n` entries, and an entry is evicted only if there are `n`, and none is older. -/
theorem isDuplicate_iff (sum256 : List UInt8 → List UInt8) {n : ℕ} (hn : 1 ≤ n) (window : ℤ)
    (calls : List Call) (c : Call)
    (htimes : (calls ++ [c]).Pairwise fun x y => x.now ≤ y.now)
    (hprint : ∀ x ∈ calls, fingerprint sum256 x.message = fingerprint sum256 c.message →
      x.message = c.message) :
    (((run sum256 n window calls).isDuplicate sum256 c).1 = true ↔
      ∃ us x vs, answers sum256 n window calls = us ++ (x, false) :: vs ∧
        x.message = c.message ∧ c.now - x.now < window ∧
        vs.countP (fun p => p.2 = false) < n) ∧
    (run sum256 n window calls).entries.length ≤ n ∧
    ∀ e, (run sum256 n window (calls ++ [c])).entries.count e <
        (run sum256 n window calls).entries.count e →
      (run sum256 n window calls).entries.length = n ∧
        ∀ e' ∈ (run sum256 n window calls).entries, e.ts ≤ e'.ts := by
  have hrun := remembers_run sum256 hn window calls
  have hcalls : (answers sum256 n window calls).map Prod.fst = calls := map_fst_answered _ _ calls
  refine ⟨?_, hrun.length_le, fun e hlt => ?_⟩
  · rw [← hrun.live_iff fun p hp => hprint p.1 (hcalls ▸ List.mem_map_of_mem hp)]
    by_cases hlive : Live sum256 (run sum256 n window calls) c
    · rw [isDuplicate_of_live hlive]
      exact iff_of_true rfl hlive
    · rw [hrun.isDuplicate_eq hlive]
      exact iff_of_false nofun hlive
  · rw [run_concat] at hlt
    refine hrun.oldest_of_count_lt ?_ hlt
    have hsorted := (List.pairwise_append.mp htimes).1
    rwa [← hcalls, List.pairwise_map] at hsorted

/-- The first of two messages comes again within the window. -/
theorem isDuplicate_iff_again :
    fingerprint id ⟨[1], [2], [3]⟩ ≠ fingerprint id ⟨[1], [2], [4]⟩ ∧
      ((run id 2 60 [⟨⟨[1], [2], [3]⟩, 0⟩, ⟨⟨[1], [2], [4]⟩, 1⟩]).isDuplicate id
        ⟨⟨[1], [2], [3]⟩, 59⟩).1 = true := by
  have hne : fingerprint id ⟨[1], [2], [3]⟩ ≠ fingerprint id ⟨[1], [2], [4]⟩ := by decide
  refine ⟨hne, (isDuplicate_iff id (n := 2) (by decide) 60 _ _ (by decide) ?_).1.mpr
    ⟨[], ⟨⟨[1], [2], [3]⟩, 0⟩, [(⟨⟨[1], [2], [4]⟩, 1⟩, false)], by decide, rfl, by decide,
      by decide⟩⟩
  intro x hx hprint
  rcases List.mem_pair.mp hx with rfl | rfl
  · rfl
  · exact absurd hprint hne.symm

end SmsGate.Dedup
