import SmsGate.Breaker.Breaker
import SmsGate.Prog.Object
import Mathlib.Data.List.DropRight
import Mathlib.Algebra.Order.Ring.Int

/-!
# When the breaker trips, and for how long

`Moves` lists what one call can do.  From it:

* `trips_exactly`: in a closed breaker the counter is the number of failures since the last success,
  and it trips on the failure with which this number reaches the threshold.  The counter is not set
  back when the breaker trips; but the way back to closed goes through a success, which does it.
* `stays_open_iff`: a success that is recorded while the breaker is open closes it, too.  So it
  stays open for its timeout unless some `Allow` comes behind such a success, with fewer failures
  in between than trip it again.
* `one_probe_iff`: a half-open breaker lets every `Allow` pass, so that one probe passes iff only
  one asks.
-/

namespace SmsGate.Breaker

open Object

/-- What a call can do. -/
inductive Moves (b : Breaker) (c : Call) : Bool × Breaker → Prop
  | pass (hop : c.op = .allow) (hstate : b.state ≠ .opened) : Moves b c (true, b)
  | reject (hop : c.op = .allow) (hstate : b.state = .opened) (hnow : c.now < b.openUntil) :
    Moves b c (false, b)
  | probe (hop : c.op = .allow) (hstate : b.state = .opened) (hnow : b.openUntil ≤ c.now) :
    Moves b c (true, { b with state := .halfOpen })
  | reset (hop : c.op = .recordSuccess) :
    Moves b c (false, { b with failures := 0, state := .closed })
  | ignore (hop : c.op = .recordFailure) (hstate : b.state = .opened) : Moves b c (false, b)
  | reopen (hop : c.op = .recordFailure) (hstate : b.state = .halfOpen) :
    Moves b c (false, { b with state := .opened, openUntil := c.now + b.resetTimeout })
  | trip (hop : c.op = .recordFailure) (hstate : b.state = .closed)
      (hcount : b.threshold ≤ b.failures + 1) :
    Moves b c
      (false,
        { b with
          failures := b.failures + 1
          state := .opened
          openUntil := c.now + b.resetTimeout })
  | count (hop : c.op = .recordFailure) (hstate : b.state = .closed)
      (hcount : b.failures + 1 < b.threshold) :
    Moves b c (false, { b with failures := b.failures + 1 })

theorem moves_step (b : Breaker) (c : Call) : Moves b c (b.step c) := by
  obtain ⟨op, now⟩ := c
  obtain ⟨state, failures, threshold, resetTimeout, openUntil⟩ := b
  cases op with
  | allow =>
    cases state with
    | closed => exact .pass rfl nofun
    | halfOpen => exact .pass rfl nofun
    | opened =>
      unfold step allow
      dsimp only
      split_ifs with hnow
      · exact .reject rfl rfl hnow
      · exact .probe rfl rfl (not_lt.mp hnow)
  | recordSuccess => cases state <;> exact .reset rfl
  | recordFailure =>
    cases state with
    | opened => exact .ignore rfl rfl
    | halfOpen => exact .reopen rfl rfl
    | closed =>
      unfold step recordFailure
      dsimp only
      split_ifs with hcount
      · exact .trip rfl rfl hcount
      · exact .count rfl rfl (not_le.mp hcount)

/-! ### The failures so far -/

/-- The failures recorded since the last success. -/
def failuresSince (calls : List Call) : ℕ :=
  (calls.rtakeWhile fun c => c.op ≠ .recordSuccess).countP fun c => c.op = .recordFailure

/-- The number of failures that trips a breaker: one, if the threshold is not positive. -/
def tripCount (threshold : ℤ) : ℤ := max 1 threshold

variable {b : Breaker} {c : Call} {calls us : List Call} {threshold resetTimeout : ℤ}

theorem failuresSince_allow (hop : c.op = .allow) :
    failuresSince (calls ++ [c]) = failuresSince calls := by
  simp [failuresSince, hop]

theorem failuresSince_success (hop : c.op = .recordSuccess) :
    failuresSince (calls ++ [c]) = 0 := by
  simp [failuresSince, hop]

theorem failuresSince_failure (hop : c.op = .recordFailure) :
    failuresSince (calls ++ [c]) = failuresSince calls + 1 := by
  simp [failuresSince, hop]

/-- A closed breaker has counted the failures since the last success, and they are too few to trip
it. -/
structure Counts (threshold resetTimeout : ℤ) (calls : List Call) (b : Breaker) : Prop where
  threshold_eq : b.threshold = threshold
  resetTimeout_eq : b.resetTimeout = resetTimeout
  failures_eq : b.state = .closed → b.failures = failuresSince calls
  failures_lt : b.state = .closed → b.failures < tripCount threshold

theorem counts_new (threshold resetTimeout : ℤ) :
    Counts threshold resetTimeout [] (new threshold resetTimeout) where
  threshold_eq := rfl
  resetTimeout_eq := rfl
  failures_eq _ := rfl
  failures_lt _ := lt_max_of_lt_left Int.zero_lt_one

theorem Counts.step (h : Counts threshold resetTimeout calls b) (c : Call) :
    Counts threshold resetTimeout (calls ++ [c]) (b.step c).2 := by
  have hmove := moves_step b c
  generalize b.step c = r at hmove ⊢
  cases hmove with
  | pass hop hstate | reject hop hstate hnow =>
    refine ⟨h.threshold_eq, h.resetTimeout_eq, ?_, h.failures_lt⟩
    rw [failuresSince_allow hop]
    exact h.failures_eq
  | probe hop hstate hnow | reopen hop hstate | trip hop hstate hcount =>
    exact ⟨h.threshold_eq, h.resetTimeout_eq, nofun, nofun⟩
  | ignore hop hstate =>
    refine ⟨h.threshold_eq, h.resetTimeout_eq, fun hclosed => ?_, h.failures_lt⟩
    rw [hclosed] at hstate
    cases hstate
  | reset hop =>
    refine ⟨h.threshold_eq, h.resetTimeout_eq, fun _ => ?_,
      fun _ => lt_max_of_lt_left Int.zero_lt_one⟩
    rw [failuresSince_success hop]
    rfl
  | count hop hstate hcount =>
    refine ⟨h.threshold_eq, h.resetTimeout_eq, fun _ => ?_, fun _ => ?_⟩
    · rw [failuresSince_failure hop, Nat.cast_succ, ← h.failures_eq hstate]
    · rw [← h.threshold_eq]
      exact lt_max_of_lt_right hcount

theorem counts_run (threshold resetTimeout : ℤ) (calls : List Call) :
    Counts threshold resetTimeout calls (run threshold resetTimeout calls) := by
  have hinv := invariant step (fun _ _ => True)
    (fun past b => Counts threshold resetTimeout (past.map Prod.fst) b)
    (counts_new threshold resetTimeout)
    (fun past b c _ h => by rw [List.map_append]; exact h.step c)
    (List.pairwise_of_forall (l := calls) fun _ _ => trivial)
  rwa [map_fst_answered] at hinv

theorem run_concat (threshold resetTimeout : ℤ) (calls : List Call) (c : Call) :
    run threshold resetTimeout (calls ++ [c]) = ((run threshold resetTimeout calls).step c).2 :=
  after_append step _ calls [c]

/-- **The breaker trips exactly on `threshold` consecutive failures.**  After any calls, in a closed
breaker the counter is the number of failures since the last success, it is below the threshold, and
a call leaves the closed state iff it is a failure with which the number is the threshold. -/
theorem trips_exactly (threshold resetTimeout : ℤ) (hthreshold : 1 ≤ threshold)
    (calls : List Call) (hclosed : (run threshold resetTimeout calls).state = .closed) :
    (run threshold resetTimeout calls).failures = failuresSince calls ∧
      (run threshold resetTimeout calls).failures < threshold ∧
      ∀ c, (run threshold resetTimeout (calls ++ [c])).state ≠ .closed ↔
        c.op = .recordFailure ∧ (failuresSince (calls ++ [c]) : ℤ) = threshold := by
  have hcounts := counts_run threshold resetTimeout calls
  have hfailures := hcounts.failures_eq hclosed
  have hlt := hcounts.failures_lt hclosed
  rw [tripCount, max_eq_right hthreshold] at hlt
  refine ⟨hfailures, hlt, fun c => ?_⟩
  rw [run_concat]
  generalize run threshold resetTimeout calls = b at hcounts hclosed hfailures hlt ⊢
  have hmove := moves_step b c
  generalize b.step c = r at hmove ⊢
  cases hmove with
  | pass hop hstate =>
    rw [hop]
    exact iff_of_false (not_not.mpr hclosed) nofun
  | reset hop =>
    rw [hop]
    exact iff_of_false (not_not.mpr rfl) nofun
  | trip hop hstate hcount =>
    rw [hcounts.threshold_eq] at hcount
    refine iff_of_true nofun ⟨hop, ?_⟩
    rw [failuresSince_failure hop, Nat.cast_succ, ← hfailures]
    omega
  | count hop hstate hcount =>
    rw [hcounts.threshold_eq] at hcount
    refine iff_of_false (not_not.mpr hclosed) fun h => ?_
    have hnumber := h.2
    rw [failuresSince_failure hop, Nat.cast_succ, ← hfailures] at hnumber
    omega
  | reject hop hstate hnow | probe hop hstate hnow | ignore hop hstate | reopen hop hstate =>
    rw [hclosed] at hstate
    cases hstate

/-- A failure, a success, and two failures. -/
theorem trips_exactly_two :
    (run 2 10 [⟨.recordFailure, 0⟩, ⟨.recordSuccess, 1⟩, ⟨.recordFailure, 2⟩]).failures = 1 ∧
      (run 2 10 [⟨.recordFailure, 0⟩, ⟨.recordSuccess, 1⟩, ⟨.recordFailure, 2⟩,
        ⟨.recordFailure, 3⟩]).state ≠ .closed := by
  obtain ⟨hfailures, -, htrip⟩ := trips_exactly 2 10 (by decide)
    [⟨.recordFailure, 0⟩, ⟨.recordSuccess, 1⟩, ⟨.recordFailure, 2⟩] rfl
  exact ⟨hfailures, (htrip ⟨.recordFailure, 3⟩).mpr ⟨rfl, rfl⟩⟩

/-! ### The time that it stays open -/

/-- Whether the calls since a trip leave the breaker open: none of them is a success, or there have
been enough failures since to trip it again. -/
def Holds (threshold : ℤ) (us : List Call) : Prop :=
  (∀ z ∈ us, z.op ≠ .recordSuccess) ∨ tripCount threshold ≤ failuresSince us

theorem holds_nil : Holds threshold [] := .inl nofun

theorem holds_allow (hop : c.op = .allow) : Holds threshold (us ++ [c]) ↔ Holds threshold us := by
  unfold Holds
  rw [failuresSince_allow hop, List.forall_mem_append, List.forall_mem_singleton, hop]
  simp

theorem not_holds_success (hop : c.op = .recordSuccess) : ¬ Holds threshold (us ++ [c]) := by
  rintro (hnone | hcount)
  · exact hnone c (List.mem_append_right us List.mem_cons_self) hop
  · rw [failuresSince_success hop] at hcount
    exact absurd ((le_max_left 1 threshold).trans hcount) (by decide)

theorem Holds.failure (hop : c.op = .recordFailure) (h : Holds threshold us) :
    Holds threshold (us ++ [c]) := by
  rcases h with hnone | hcount
  · refine .inl (List.forall_mem_append.mpr ⟨hnone, List.forall_mem_singleton.mpr ?_⟩)
    rw [hop]
    nofun
  · refine .inr (hcount.trans ?_)
    rw [failuresSince_failure hop]
    omega

/-- One more failure makes a difference only by the number that it reaches. -/
theorem holds_failure_iff (hop : c.op = .recordFailure) (h : ¬ Holds threshold us) :
    Holds threshold (us ++ [c]) ↔ threshold ≤ failuresSince us + 1 := by
  have hsuccess : ¬ ∀ z ∈ us ++ [c], z.op ≠ .recordSuccess := fun hnone =>
    h (.inl fun z hz => hnone z (List.mem_append_left _ hz))
  rw [Holds, failuresSince_failure hop, tripCount, or_iff_right hsuccess, max_le_iff, Nat.cast_succ]
  exact and_iff_right (by omega)

/-- The breaker after the calls `us` that follow a trip at the time `tripped`. -/
def SinceTrip (threshold resetTimeout tripped : ℤ) (us : List Call) (b : Breaker) : Prop :=
  (∃ z ∈ us, tripped + resetTimeout ≤ z.now) ∨
    (b.threshold = threshold ∧ b.resetTimeout = resetTimeout) ∧
      (b.state = .opened ∧ tripped + resetTimeout ≤ b.openUntil ∧ Holds threshold us ∨
        b.state = .closed ∧ b.failures = failuresSince us ∧ ¬ Holds threshold us)

theorem SinceTrip.step {tripped : ℤ} (h : SinceTrip threshold resetTimeout tripped us b)
    (hc : tripped ≤ c.now) : SinceTrip threshold resetTimeout tripped (us ++ [c]) (b.step c).2 := by
  -- once the timeout has elapsed, nothing is left to show
  by_cases hnow : tripped + resetTimeout ≤ c.now
  · exact .inl ⟨c, List.mem_append_right us List.mem_cons_self, hnow⟩
  rcases h with ⟨z, hz, hlate⟩ | ⟨hfields, hstate⟩
  · exact .inl ⟨z, List.mem_append_left _ hz, hlate⟩
  refine .inr ?_
  have hmove := moves_step b c
  generalize b.step c = r at hmove ⊢
  rcases hstate with ⟨hopened, huntil, hholds⟩ | ⟨hclosed, hfailures, hholds⟩
  · cases hmove with
    | pass hop hother => exact absurd hopened hother
    | reject hop => exact ⟨hfields, .inl ⟨hopened, huntil, (holds_allow hop).mpr hholds⟩⟩
    | probe hop hstate hprobe => exact absurd (huntil.trans hprobe) hnow
    | reset hop =>
      refine ⟨hfields, .inr ⟨rfl, ?_, not_holds_success hop⟩⟩
      rw [failuresSince_success hop]
      rfl
    | ignore hop => exact ⟨hfields, .inl ⟨hopened, huntil, hholds.failure hop⟩⟩
    | reopen hop hstate | trip hop hstate hcount | count hop hstate hcount =>
      rw [hopened] at hstate
      cases hstate
  · cases hmove with
    | pass hop =>
      refine ⟨hfields, .inr ⟨hclosed, ?_, mt (holds_allow hop).mp hholds⟩⟩
      rw [failuresSince_allow hop]
      exact hfailures
    | reset hop =>
      refine ⟨hfields, .inr ⟨rfl, ?_, not_holds_success hop⟩⟩
      rw [failuresSince_success hop]
      rfl
    | trip hop hstate hcount =>
      refine ⟨hfields, .inl ⟨rfl, ?_, (holds_failure_iff hop hholds).mpr ?_⟩⟩
      · rw [hfields.2]
        exact Int.add_le_add_right hc resetTimeout
      · rw [hfields.1, hfailures] at hcount
        exact hcount
    | count hop hstate hcount =>
      refine ⟨hfields, .inr ⟨hclosed, ?_, mt (holds_failure_iff hop hholds).mp ?_⟩⟩
      · rw [failuresSince_failure hop, Nat.cast_succ, ← hfailures]
      · rw [hfields.1, hfailures] at hcount
        exact not_le.mpr hcount
    | reject hop hstate hnow | probe hop hstate hnow | ignore hop hstate | reopen hop hstate =>
      rw [hclosed] at hstate
      cases hstate

/-- A call that opens the breaker sets its time. -/
theorem sinceTrip_start {x : Call} (hbefore : b.state ≠ .opened)
    (htrip : (b.step x).2.state = .opened) :
    SinceTrip b.threshold b.resetTimeout x.now [] (b.step x).2 := by
  refine .inr ?_
  have hmove := moves_step b x
  generalize b.step x = r at hmove htrip ⊢
  cases hmove with
  | reopen hop hstate | trip hop hstate hcount =>
    exact ⟨⟨rfl, rfl⟩, .inl ⟨rfl, le_rfl, holds_nil⟩⟩
  | pass | count => exact absurd htrip hbefore
  | reset => cases htrip
  | reject hop hstate hnow | probe hop hstate hnow | ignore hop hstate =>
    exact absurd hstate hbefore

theorem sinceTrip_after {x : Call} (hbefore : b.state ≠ .opened)
    (htrip : (b.step x).2.state = .opened) (hus : ∀ z ∈ us, x.now ≤ z.now) :
    SinceTrip b.threshold b.resetTimeout x.now us (after step (b.step x).2 us) := by
  induction us using List.reverseRecOn with
  | nil => exact sinceTrip_start hbefore htrip
  | append_singleton us c ih =>
    rw [List.forall_mem_append, List.forall_mem_singleton] at hus
    rw [after_append]
    exact (ih hus.1).step hus.2

/-- What an `Allow` is answered before the timeout has elapsed. -/
theorem SinceTrip.allow_eq_false_iff {tripped : ℤ}
    (h : SinceTrip threshold resetTimeout tripped us b) (hop : c.op = .allow)
    (hus : ∀ z ∈ us, z.now ≤ c.now) (hnow : c.now < tripped + resetTimeout) :
    (b.step c).1 = false ↔ Holds threshold us := by
  rcases h with ⟨z, hz, hlate⟩ | ⟨-, ⟨hopened, huntil, hholds⟩ | ⟨hclosed, -, hholds⟩⟩
  · exact absurd (hlate.trans (hus z hz)) (not_le.mpr hnow)
  · refine iff_of_true ?_ hholds
    rw [Breaker.step, hop]
    dsimp only
    rw [allow, hopened]
    exact congrArg Prod.fst (if_pos (hnow.trans_le huntil))
  · refine iff_of_false ?_ hholds
    rw [Breaker.step, hop]
    dsimp only
    rw [allow, hclosed]
    nofun

/-- **An open breaker stays open** from the call that trips it to the end of the timeout iff every
`Allow` in this time comes before any success, or behind enough failures since the last one to trip
the breaker again. -/
theorem stays_open_iff (threshold resetTimeout : ℤ) (calls rest : List Call) (x : Call)
    (htimes : (calls ++ x :: rest).Pairwise fun c c' => c.now ≤ c'.now)
    (hbefore : (run threshold resetTimeout calls).state ≠ .opened)
    (htrip : (run threshold resetTimeout (calls ++ [x])).state = .opened) :
    (∀ p ∈ answered step (run threshold resetTimeout (calls ++ [x])) rest,
        p.1.op = .allow → p.1.now < x.now + resetTimeout → p.2 = false) ↔
      ∀ us y vs, rest = us ++ y :: vs → y.op = .allow → y.now < x.now + resetTimeout →
        (∀ z ∈ us, z.op ≠ .recordSuccess) ∨ tripCount threshold ≤ failuresSince us := by
  have hcounts := counts_run threshold resetTimeout calls
  rw [run_concat] at htrip ⊢
  obtain ⟨hx, hrest⟩ := List.pairwise_cons.mp (List.pairwise_append.mp htimes).2.1
  -- the answer to each `Allow`
  have hanswer : ∀ us y vs, rest = us ++ y :: vs → y.op = .allow →
      y.now < x.now + resetTimeout →
      (((after step ((run threshold resetTimeout calls).step x).2 us).step y).1 = false ↔
        Holds threshold us) := by
    rintro us y vs rfl hop hnow
    have hsince := sinceTrip_after hbefore htrip fun z hz => hx z (List.mem_append_left _ hz)
    rw [hcounts.threshold_eq, hcounts.resetTimeout_eq] at hsince
    refine hsince.allow_eq_false_iff hop (fun z hz => ?_) hnow
    exact (List.pairwise_append.mp hrest).2.2 z hz y List.mem_cons_self
  constructor
  · intro h us y vs hsplit hop hnow
    exact (hanswer us y vs hsplit hop hnow).mp
      (h (y, _) ((mem_answered_iff step).mpr ⟨us, vs, hsplit, rfl⟩) hop hnow)
  · intro h p hp hop hnow
    obtain ⟨us, vs, hsplit, hp⟩ := (mem_answered_iff step).mp hp
    rw [hp]
    exact (hanswer us p.1 vs hsplit hop hnow).mpr (h us p.1 vs hsplit hop hnow)

/-- A failure recorded while the breaker is open leaves it open. -/
theorem stays_open_iff_late_failure :
    (run 1 60 [⟨.recordFailure, 0⟩]).state = .opened ∧
      ((run 1 60 [⟨.recordFailure, 0⟩, ⟨.recordFailure, 1⟩]).step ⟨.allow, 2⟩).1 = false := by
  have hstays := (stays_open_iff 1 60 [] [⟨.recordFailure, 1⟩, ⟨.allow, 2⟩] ⟨.recordFailure, 0⟩
    (by decide) nofun rfl).mpr fun us y vs hsplit _ _ => .inl fun z hz => by
      have hmem : z ∈ [⟨.recordFailure, 1⟩, ⟨.allow, 2⟩] := hsplit ▸ List.mem_append_left _ hz
      rcases List.mem_pair.mp hmem with rfl | rfl <;> exact nofun
  have hmem : (⟨.allow, 2⟩, ((run 1 60 [⟨.recordFailure, 0⟩, ⟨.recordFailure, 1⟩]).step
      ⟨.allow, 2⟩).1) ∈ answered step (run 1 60 [⟨.recordFailure, 0⟩])
        [⟨.recordFailure, 1⟩, ⟨.allow, 2⟩] := by decide
  exact ⟨rfl, hstays _ hmem rfl (by decide)⟩

/-- Two operations are admitted.  One fails, and the breaker trips at the time 0; the other succeeds
at the time 1.  The breaker closes, and an `Allow` passes at the time 2, although the timeout ends
at 60. -/
theorem not_stays_open :
    (run 1 60 [⟨.allow, 0⟩, ⟨.allow, 0⟩]).state ≠ .opened ∧
      (run 1 60 [⟨.allow, 0⟩, ⟨.allow, 0⟩, ⟨.recordFailure, 0⟩]).state = .opened ∧
      ¬ ∀ p ∈ answered step (run 1 60 [⟨.allow, 0⟩, ⟨.allow, 0⟩, ⟨.recordFailure, 0⟩])
          [⟨.recordSuccess, 1⟩, ⟨.allow, 2⟩],
        p.1.op = .allow → p.1.now < 0 + 60 → p.2 = false := by
  refine ⟨nofun, rfl, fun h => ?_⟩
  have hmem : (⟨.allow, 2⟩, true) ∈
      answered step (run 1 60 [⟨.allow, 0⟩, ⟨.allow, 0⟩, ⟨.recordFailure, 0⟩])
        [⟨.recordSuccess, 1⟩, ⟨.allow, 2⟩] := by decide
  exact absurd (h _ hmem rfl (by decide)) nofun

/-! ### The probe -/

/-- A half-open breaker lets every call of `Allow` pass. -/
theorem answered_halfOpen {ys : List Call} (hb : b.state = .halfOpen)
    (hys : ∀ y ∈ ys, y.op = .allow) : answered step b ys = ys.map fun y => (y, true) := by
  induction ys with
  | nil => rfl
  | cons y ys ih =>
    obtain ⟨hy, hys⟩ := List.forall_mem_cons.mp hys
    have hstep : b.step y = (true, b) := by
      rw [step, hy]
      dsimp only
      rw [allow, hb]
    rw [answered, hstep, ih hys, List.map_cons]

/-- **One probe.**  From the call that makes an open breaker half-open to the next result, exactly
one `Allow` passes iff there is no other `Allow`. -/
theorem one_probe_iff (threshold resetTimeout : ℤ) (calls probes : List Call) (x : Call)
    (hopened : (run threshold resetTimeout calls).state = .opened)
    (hhalf : (run threshold resetTimeout (calls ++ [x])).state = .halfOpen)
    (hprobes : ∀ y ∈ probes, y.op = .allow) :
    (answered step (run threshold resetTimeout calls) (x :: probes)).countP (fun p => p.2) = 1 ↔
      probes = [] := by
  rw [run_concat] at hhalf
  generalize run threshold resetTimeout calls = b at hopened hhalf ⊢
  have hpass : (b.step x).1 = true := by
    have hmove := moves_step b x
    generalize b.step x = r at hmove hhalf ⊢
    cases hmove with
    | pass | probe => rfl
    | reject hop hstate | ignore hop hstate =>
      rw [hopened] at hhalf
      cases hhalf
    | count hop hstate =>
      rw [hopened] at hhalf
      cases hhalf
    | reset | reopen | trip => cases hhalf
  rw [answered, answered_halfOpen hhalf hprobes, hpass, List.countP_cons_of_pos rfl,
    List.countP_map]
  have hall : probes.countP ((fun p : Call × Bool => p.2) ∘ fun y => (y, true)) = probes.length :=
    List.countP_eq_length.mpr fun _ _ => rfl
  rw [hall, Nat.add_eq_right, List.length_eq_zero_iff]

/-- One caller asks. -/
theorem one_probe_iff_alone :
    (answered step (run 1 10 [⟨.recordFailure, 0⟩]) [⟨.allow, 10⟩]).countP (fun p => p.2) = 1 :=
  (one_probe_iff 1 10 [⟨.recordFailure, 0⟩] [] ⟨.allow, 10⟩ rfl rfl nofun).mpr rfl

/-- Three callers ask after the timeout, before the result of the first is known, and all pass. -/
theorem not_one_probe :
    (run 1 10 [⟨.recordFailure, 0⟩]).state = .opened ∧
      (run 1 10 [⟨.recordFailure, 0⟩, ⟨.allow, 10⟩]).state = .halfOpen ∧
      (answered step (run 1 10 [⟨.recordFailure, 0⟩])
        [⟨.allow, 10⟩, ⟨.allow, 10⟩, ⟨.allow, 11⟩]).countP (fun p => p.2) = 3 :=
  ⟨rfl, rfl, rfl⟩

end SmsGate.Breaker
