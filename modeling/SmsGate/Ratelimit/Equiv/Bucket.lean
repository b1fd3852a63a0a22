import SmsGate.Ratelimit.Limiter
import SmsGate.Prog.TokenBucket
import Mathlib.Tactic.FieldSimp

/-!
# The limiter is a token bucket for each key

`Tracks` says that the bucket of a key has the level of a token bucket through which the calls for
this key have passed, and is kept by every call (`Tracks.allow`).  What a bucket does depends on the
calls for its key only (`answers_filter`).  The outcome is `tokenBucket_spec`.
-/

namespace SmsGate.Ratelimit

open Object TokenBucket

/-! ### One bucket -/

/-- The tokens that flow in within a nanosecond. -/
def rate (perMin : ℤ) : ℚ := perMin / minute

theorem rate_nonneg {perMin : ℤ} (h : 0 ≤ perMin) : 0 ≤ rate perMin :=
  div_nonneg (Int.cast_nonneg h) (by decide)

namespace Bucket

/-- The level of a bucket. -/
def level (b : Bucket) : Level ℚ := ⟨b.tokens, b.lastRefill⟩

theorem level_refill (b : Bucket) (now : ℤ) :
    (b.refill now).level = ⟨b.level.refilled b.maxTokens b.refillRate now, now⟩ := by
  have hflow : seconds (now - b.lastRefill) * b.refillRate * second =
      b.refillRate * (now - b.lastRefill) := by
    have hsecond : (second : ℚ) ≠ 0 := by decide
    rw [seconds, Int.cast_sub]
    field_simp
  rw [level, refill, Level.refilled, hflow]
  dsimp only [level]
  rw [min_def_lt]

theorem allow_of_le {b : Bucket} {now : ℤ} (h : 1 ≤ (b.refill now).tokens) :
    b.allow now = ((true, 0), { b.refill now with tokens := (b.refill now).tokens - 1 }) :=
  if_pos h

theorem allow_of_lt {b : Bucket} {now : ℤ} (h : (b.refill now).tokens < 1) :
    b.allow now = ((false, (b.refill now).waitNs), b.refill now) :=
  if_neg (not_le.mpr h)

theorem allow_eq_false_iff (b : Bucket) (now : ℤ) :
    (b.allow now).1.1 = false ↔ (b.refill now).tokens < 1 := by
  by_cases hone : 1 ≤ (b.refill now).tokens
  · rw [allow_of_le hone]
    exact iff_of_false nofun (not_lt.mpr hone)
  · rw [allow_of_lt (not_le.mp hone)]
    exact iff_of_true rfl (not_le.mp hone)

theorem lastRefill_allow (b : Bucket) (now : ℤ) : (b.allow now).2.lastRefill = now := by
  by_cases hone : 1 ≤ (b.refill now).tokens
  · rw [allow_of_le hone]
    rfl
  · rw [allow_of_lt (not_le.mp hone)]
    rfl

variable {perMin now : ℤ} {admitted : List ℚ} {b : Bucket}

/-- A bucket for a limit. -/
structure HasLimit (perMin : ℤ) (b : Bucket) : Prop where
  maxTokens : b.maxTokens = perMin
  refillRate : b.refillRate = rate perMin

theorem hasLimit_new (perMin now : ℤ) : HasLimit perMin (newBucket perMin now) := ⟨rfl, rfl⟩

theorem HasLimit.refill (h : HasLimit perMin b) (now : ℤ) : HasLimit perMin (b.refill now) :=
  ⟨h.maxTokens, h.refillRate⟩

theorem HasLimit.allow (h : HasLimit perMin b) (now : ℤ) : HasLimit perMin (b.allow now).2 := by
  by_cases hone : 1 ≤ (b.refill now).tokens
  · rw [allow_of_le hone]
    exact ⟨h.maxTokens, h.refillRate⟩
  · rw [allow_of_lt (not_le.mp hone)]
    exact h.refill now

/-- A bucket for a limit, through which calls have passed at the times `admitted`. -/
structure Fits (perMin : ℤ) (admitted : List ℚ) (b : Bucket) : Prop where
  limit : b.HasLimit perMin
  account : Account (perMin : ℚ) (rate perMin) admitted b.level

theorem fits_new (hperMin : 0 ≤ perMin) (now : ℤ) : Fits perMin [] (newBucket perMin now) where
  limit := hasLimit_new perMin now
  account := Account.full (Int.cast_nonneg hperMin) (rate_nonneg hperMin) now

namespace Fits

theorem refill (h : Fits perMin admitted b) (hperMin : 0 ≤ perMin) (hnow : b.lastRefill ≤ now) :
    Fits perMin admitted (b.refill now) where
  limit := h.limit.refill now
  account := by
    rw [level_refill, h.limit.maxTokens, h.limit.refillRate]
    exact h.account.refill (rate_nonneg hperMin) (Int.cast_le.mpr hnow)

/-- A call passes iff there is a token, and takes it. -/
theorem allow (h : Fits perMin admitted b) (hperMin : 0 ≤ perMin) (hnow : b.lastRefill ≤ now) :
    Fits perMin (admitted ++ if (b.allow now).1.1 then [(now : ℚ)] else []) (b.allow now).2 := by
  have hrefill := h.refill hperMin hnow
  refine ⟨h.limit.allow now, ?_⟩
  by_cases hone : 1 ≤ (b.refill now).tokens
  · rw [allow_of_le hone]
    exact hrefill.account.spend (rate_nonneg hperMin) hone
  · rw [allow_of_lt (not_le.mp hone), if_neg Bool.false_ne_true, List.append_nil]
    exact hrefill.account

end Fits

end Bucket

/-! ### All buckets -/

namespace Registry

variable {K : Type} [DecidableEq K]

theorem buckets_allow_self (r : Registry K) (c : Call K) :
    (r.allow c).2.buckets c.key = some ((r.bucket c).allow c.now).2 :=
  Function.update_self _ _ _

theorem buckets_allow_of_ne (r : Registry K) {c : Call K} {key : K} (hkey : key ≠ c.key) :
    (r.allow c).2.buckets key = r.buckets key :=
  Function.update_of_ne hkey _ _

/-- The times of the calls for a key that were permitted. -/
def admittedAt (key : K) (past : List (Call K × Bool × ℤ)) : List ℚ :=
  (past.filter fun p => p.1.key = key ∧ p.2.1 = true).map fun p => (p.1.now : ℚ)

/-- Each bucket has seen the calls for its key, and a key without a bucket has had none. -/
structure Tracks (perMin : ℤ) (past : List (Call K × Bool × ℤ)) (r : Registry K) : Prop where
  perMin_eq : r.perMin = perMin
  fits : ∀ key b, r.buckets key = some b → b.Fits perMin (admittedAt key past)
  seen : ∀ key b, r.buckets key = some b → ∃ p ∈ past, p.1.now = b.lastRefill
  unseen : ∀ key, r.buckets key = none → ∀ p ∈ past, p.1.key ≠ key

variable {perMin : ℤ} {past : List (Call K × Bool × ℤ)} {r : Registry K} {c : Call K} {key : K}

theorem admittedAt_concat_self (past : List (Call K × Bool × ℤ)) (c : Call K) (res : Bool × ℤ) :
    admittedAt c.key (past ++ [(c, res)]) =
      admittedAt c.key past ++ if res.1 then [(c.now : ℚ)] else [] := by
  unfold admittedAt
  rw [List.filter_append, List.map_append]
  cases hres : res.1 <;> simp [hres]

theorem admittedAt_concat_of_ne (hkey : c.key ≠ key) (past : List (Call K × Bool × ℤ))
    (res : Bool × ℤ) : admittedAt key (past ++ [(c, res)]) = admittedAt key past := by
  unfold admittedAt
  rw [List.filter_append, List.map_append]
  simp [hkey]

theorem admittedAt_of_forall_ne (h : ∀ p ∈ past, p.1.key ≠ key) : admittedAt key past = [] := by
  unfold admittedAt
  rw [List.map_eq_nil_iff, List.filter_eq_nil_iff]
  intro p hp
  simp [h p hp]

theorem tracks_new (perMin : ℤ) : Tracks perMin [] (new perMin : Registry K) :=
  ⟨rfl, nofun, nofun, nofun⟩

namespace Tracks

/-- The bucket that a call uses, be it new or not. -/
theorem bucket (h : Tracks perMin past r) (hperMin : 0 ≤ perMin)
    (hpast : ∀ p ∈ past, p.1.now ≤ c.created) :
    (r.bucket c).Fits perMin (admittedAt c.key past) ∧ (r.bucket c).lastRefill ≤ c.now := by
  unfold Registry.bucket
  cases hbucket : r.buckets c.key with
  | none =>
    rw [Option.getD_none, h.perMin_eq, admittedAt_of_forall_ne (h.unseen _ hbucket)]
    exact ⟨Bucket.fits_new hperMin _, c.created_le⟩
  | some b =>
    obtain ⟨p, hp, hlast⟩ := h.seen _ _ hbucket
    rw [Option.getD_some, ← hlast]
    exact ⟨h.fits _ _ hbucket, (hpast p hp).trans c.created_le⟩

/-- A call keeps it. -/
theorem allow (h : Tracks perMin past r) (hperMin : 0 ≤ perMin)
    (hpast : ∀ p ∈ past, p.1.now ≤ c.created) :
    Tracks perMin (past ++ [(c, (r.allow c).1)]) (r.allow c).2 := by
  obtain ⟨hfits, hlast⟩ := h.bucket hperMin hpast
  refine ⟨h.perMin_eq, fun key b hb => ?_, fun key b hb => ?_, fun key hnone p hp => ?_⟩
  · by_cases hkey : key = c.key
    · subst hkey
      obtain rfl := Option.some.inj ((r.buckets_allow_self c).symm.trans hb)
      rw [admittedAt_concat_self]
      exact hfits.allow hperMin hlast
    · rw [r.buckets_allow_of_ne hkey] at hb
      rw [admittedAt_concat_of_ne (Ne.symm hkey)]
      exact h.fits key b hb
  · by_cases hkey : key = c.key
    · subst hkey
      obtain rfl := Option.some.inj ((r.buckets_allow_self c).symm.trans hb)
      exact ⟨_, List.mem_append_right past List.mem_cons_self, (Bucket.lastRefill_allow _ _).symm⟩
    · rw [r.buckets_allow_of_ne hkey] at hb
      obtain ⟨p, hp, hnow⟩ := h.seen key b hb
      exact ⟨p, List.mem_append_left _ hp, hnow⟩
  · by_cases hkey : key = c.key
    · subst hkey
      rw [r.buckets_allow_self] at hnone
      cases hnone
    · rw [r.buckets_allow_of_ne hkey] at hnone
      rcases List.mem_append.mp hp with hp | hp
      · exact h.unseen key hnone p hp
      · rw [List.mem_singleton.mp hp]
        exact Ne.symm hkey

/-- What has passed is bounded, for every key. -/
theorem bounded (h : Tracks perMin past r) (hperMin : 0 ≤ perMin) (key : K) {x y : ℚ}
    (hxy : x ≤ y) :
    ((admittedAt key past).countP fun t => x ≤ t ∧ t ≤ y : ℚ) ≤ perMin + rate perMin * (y - x) := by
  cases hbucket : r.buckets key with
  | none =>
    rw [admittedAt_of_forall_ne (h.unseen key hbucket)]
    exact (Bucket.fits_new hperMin 0).account.bounded x y hxy
  | some b => exact (h.fits key b hbucket).account.bounded x y hxy

end Tracks

theorem tracks_run (hperMin : 0 ≤ perMin) {calls : List (Call K)}
    (htimes : calls.Pairwise fun x y => x.now ≤ y.created) :
    Tracks perMin (answers perMin calls) (run perMin calls) :=
  invariant allow (fun x y => x.now ≤ y.created) _ (tracks_new perMin)
    (fun _ _ _ hpast h => h.allow hperMin hpast) htimes

/-! ### One key and the others -/

/-- Two registries have the same bucket for a key, or make the same. -/
def SameBucket (key : K) (r r' : Registry K) : Prop :=
  r.perMin = r'.perMin ∧ r.buckets key = r'.buckets key

variable {r' : Registry K}

theorem SameBucket.allow (h : SameBucket c.key r r') :
    (r.allow c).1 = (r'.allow c).1 ∧ SameBucket c.key (r.allow c).2 (r'.allow c).2 := by
  have hbucket : r.bucket c = r'.bucket c := by
    rw [Registry.bucket, Registry.bucket, h.1, h.2]
  refine ⟨?_, h.1, ?_⟩
  · rw [Registry.allow, Registry.allow, hbucket]
  · rw [buckets_allow_self, buckets_allow_self, hbucket]

theorem SameBucket.allow_left (h : SameBucket key r r') (hkey : c.key ≠ key) :
    SameBucket key (r.allow c).2 r' :=
  ⟨h.1, (r.buckets_allow_of_ne hkey.symm).trans h.2⟩

/-- The answers for a key do not depend on the calls for other keys. -/
theorem answers_filter (perMin : ℤ) (calls : List (Call K)) (key : K) :
    (answers perMin calls).filter (fun p => p.1.key = key) =
      answers perMin (calls.filter fun c => c.key = key) := by
  refine part_answered (fun c => decide (c.key = key)) (SameBucket key)
    (fun r r' c hc hr => ?_) (fun r r' c hc hr => hr.allow_left (of_decide_eq_false hc))
    ⟨rfl, rfl⟩ calls
  obtain rfl : c.key = key := of_decide_eq_true hc
  exact hr.allow

/-! ### The main result -/

theorem countP_admittedAt (key : K) (past : List (Call K × Bool × ℤ)) (x y : ℚ) :
    (admittedAt key past).countP (fun t => x ≤ t ∧ t ≤ y) =
      past.countP fun p => p.1.key = key ∧ p.2.1 = true ∧ x ≤ p.1.now ∧ p.1.now ≤ y := by
  rw [admittedAt, List.countP_map, List.countP_filter]
  refine List.countP_congr fun p _ => ?_
  simp only [Function.comp, Bool.and_eq_true, decide_eq_true_eq]
  tauto

/-- **The token bucket bound.**  After any calls at non-decreasing times, for any keys: the tokens
of each bucket are between 0 and the limit; in an interval of `T` seconds at most
`perMin + perMin * T / 60` calls for a key are permitted; a call is denied only if its bucket holds
less than one token when it has been refilled; and the answers for a key are what they are without
the calls for other keys. -/
theorem tokenBucket_spec (perMin : ℤ) (hperMin : 1 ≤ perMin) (calls : List (Call K))
    (htimes : calls.Pairwise fun x y => x.now ≤ y.created) :
    (∀ key b, (run perMin calls).buckets key = some b → 0 ≤ b.tokens ∧ b.tokens ≤ perMin) ∧
    (∀ (key : K) (x T : ℚ), 0 ≤ T →
      ((answers perMin calls).countP fun p =>
        p.1.key = key ∧ p.2.1 = true ∧ x ≤ p.1.now ∧ p.1.now ≤ x + T * second : ℚ) ≤
        perMin + perMin * T / 60) ∧
    (∀ c : Call K, ((run perMin calls).allow c).1.1 = false →
      (((run perMin calls).bucket c).refill c.now).tokens < 1) ∧
    ∀ key : K, (answers perMin calls).filter (fun p => p.1.key = key) =
      answers perMin (calls.filter fun c => c.key = key) := by
  have hnonneg : 0 ≤ perMin := by omega
  have htracks := tracks_run hnonneg htimes
  refine ⟨fun key b hb => ?_, fun key x T hT => ?_, fun c hc => ?_, answers_filter perMin calls⟩
  · have haccount := (htracks.fits key b hb).account
    exact ⟨haccount.nonneg, haccount.le_cap⟩
  · have hsecond : (0 : ℚ) ≤ second := by decide
    have hle : x ≤ x + T * second := le_add_of_nonneg_right (mul_nonneg hT hsecond)
    have hbound := htracks.bounded hnonneg key hle
    have hflow : rate perMin * (x + T * second - x) = perMin * T / 60 := by
      rw [rate, minute, second]
      push_cast
      ring
    rwa [countP_admittedAt, hflow] at hbound
  · exact (Bucket.allow_eq_false_iff _ _).mp hc

/-- The second call for a key is denied, with a limit of one. -/
theorem tokenBucket_spec_one :
    ((run 1 [⟨true, 0, 0, by decide⟩, ⟨false, 0, 0, by decide⟩]).allow
        ⟨true, 0, 1, by decide⟩).1.1 = false ∧
      (((run 1 [⟨true, 0, 0, by decide⟩, ⟨false, 0, 0, by decide⟩]).bucket
        ⟨true, 0, 1, by decide⟩).refill 1).tokens < 1 := by
  have hdenied : ((run 1 [⟨true, 0, 0, by decide⟩, ⟨false, 0, 0, by decide⟩]).allow
      ⟨true, 0, 1, by decide⟩).1.1 = false := by
    decide +kernel
  exact ⟨hdenied, (tokenBucket_spec 1 le_rfl _ (by decide)).2.2.1 _ hdenied⟩

end Registry

/-- A limiter that is made from the environment is new, and has a limit. -/
theorem fromEnv_eq_some {v : List UInt8} {l : Limiter} (h : fromEnv v = some l) :
    ∃ perMin, 1 ≤ perMin ∧ l = .new perMin := by
  have hnonneg : ∀ n, 0 ≤ if 0 ≤ n then n else defaultPerMin := by
    intro n
    split_ifs with hn
    · exact hn
    · decide
  unfold fromEnv at h
  obtain ⟨hzero, hl⟩ := Option.ite_none_left_eq_some.mp h
  refine ⟨_, ?_, (Option.some.inj hl).symm⟩
  cases hatoi : Go.Strconv.atoi v with
  | none => decide
  | some n =>
    rw [hatoi] at hzero
    have hn := hnonneg n
    dsimp only at hzero ⊢
    omega

end SmsGate.Ratelimit
