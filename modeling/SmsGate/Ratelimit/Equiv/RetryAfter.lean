import SmsGate.Ratelimit.Equiv.Bucket

/-!
# How long a refused request has to wait

A refused request is told to wait for a whole number of seconds: the time until the next token, cut
down to nanoseconds and then to seconds, and one second at least (`retrySecs_eq`).  So where this
time is more than a second, and not a whole number of seconds, it is too short, and the request is
refused again (`retryAfter_iff`).
-/

namespace SmsGate.Ratelimit

open Object TokenBucket Go Go.Strconv

/-- The seconds until a bucket holds a token. -/
def waitSecs (perMin : ℤ) (b : Bucket) : ℚ := (1 - b.tokens) * 60 / perMin

/-- The seconds that `Middleware` tells. -/
def retrySecs (b : Bucket) : ℤ :=
  let secs := truncate (seconds b.waitNs)
  if secs < 1 then 1 else secs

/-! ### Cutting down to whole seconds -/

theorem truncate_of_nonneg {x : ℚ} (h : 0 ≤ x) : truncate x = ⌊x⌋ := if_pos h

theorem floor_seconds_floor (w : ℚ) : ⌊seconds ⌊w * second⌋⌋ = ⌊w⌋ := by
  have hsecond : (0 : ℚ) < second := by decide
  rw [seconds, Int.floor_eq_iff, le_div_iff₀ hsecond, div_lt_iff₀ hsecond]
  constructor
  · have hle : ⌊w⌋ * second ≤ ⌊w * second⌋ := by
      rw [Int.le_floor, Int.cast_mul]
      exact mul_le_mul_of_nonneg_right (Int.floor_le w) hsecond.le
    exact_mod_cast hle
  · calc (⌊w * second⌋ : ℚ) ≤ w * second := Int.floor_le _
      _ < (⌊w⌋ + 1) * second := mul_lt_mul_of_pos_right (Int.lt_floor_add_one w) hsecond

/-- A wait of a second at least, in nanoseconds. -/
theorem waitNs_eq {perMin : ℤ} (hperMin : 1 ≤ perMin) {b : Bucket}
    (hrate : b.refillRate = rate perMin) (htokens : b.tokens < 1) :
    b.waitNs = ⌊max 1 (waitSecs perMin b) * second⌋ := by
  have hpos : (0 : ℚ) < perMin := by exact_mod_cast hperMin
  have hsecond : (0 : ℚ) ≤ second := by decide
  have hwait : (1 - b.tokens) / (b.refillRate * second) * second = waitSecs perMin b * second := by
    rw [hrate, rate, waitSecs, minute]
    push_cast
    field_simp
  have hnonneg : 0 ≤ waitSecs perMin b :=
    div_nonneg (mul_nonneg (sub_nonneg.mpr htokens.le) (by decide)) hpos.le
  have hmax : ⌊max 1 (waitSecs perMin b) * second⌋ = max second ⌊waitSecs perMin b * second⌋ := by
    rw [max_mul_of_nonneg _ _ hsecond, one_mul, Int.floor_mono.map_max, Int.floor_intCast]
  rw [hmax]
  unfold Bucket.waitNs
  dsimp only
  rw [hwait, truncate_of_nonneg (mul_nonneg hnonneg hsecond)]
  split_ifs with hshort
  · exact (max_eq_left hshort.le).symm
  · exact (max_eq_right (not_lt.mp hshort)).symm

theorem retrySecs_nonneg (b : Bucket) : 0 ≤ retrySecs b := by
  unfold retrySecs
  dsimp only
  split_ifs with hshort
  · decide
  · omega

/-- What is left of the time until the next token. -/
theorem retrySecs_eq {perMin : ℤ} (hperMin : 1 ≤ perMin) {b : Bucket}
    (hrate : b.refillRate = rate perMin) (htokens : b.tokens < 1) :
    retrySecs b = max 1 ⌊waitSecs perMin b⌋ := by
  have hfloor : ⌊seconds b.waitNs⌋ = max 1 ⌊waitSecs perMin b⌋ := by
    rw [waitNs_eq hperMin hrate htokens, floor_seconds_floor, Int.floor_mono.map_max,
      Int.floor_one]
  have hnonneg : 0 ≤ seconds b.waitNs := by
    have hone : 0 ≤ ⌊seconds b.waitNs⌋ := by
      rw [hfloor]
      exact le_trans (by decide) (le_max_left 1 _)
    exact Int.floor_nonneg.mp hone
  unfold retrySecs
  dsimp only
  rw [truncate_of_nonneg hnonneg, hfloor, if_neg (not_lt.mpr (le_max_left _ _))]

/-- Whole seconds are enough iff nothing that counts was cut off. -/
theorem le_max_floor_iff (w : ℚ) : w ≤ (max 1 ⌊w⌋ : ℤ) ↔ w ≤ 1 ∨ ∃ k : ℤ, w = k := by
  constructor
  · intro h
    rcases max_choice 1 ⌊w⌋ with hmax | hmax
    · rw [hmax, Int.cast_one] at h
      exact .inl h
    · rw [hmax] at h
      exact .inr ⟨⌊w⌋, le_antisymm h (Int.floor_le w)⟩
  · rintro (h | ⟨k, rfl⟩)
    · exact h.trans (by exact_mod_cast le_max_left 1 ⌊w⌋)
    · rw [Int.floor_intCast]
      exact_mod_cast le_max_right 1 k

/-! ### The next request -/

/-- Whether a refused bucket holds a token some seconds later. -/
theorem one_le_refill_iff {perMin : ℤ} (hperMin : 1 ≤ perMin) {b : Bucket}
    (hlimit : b.HasLimit perMin) (s : ℤ) :
    1 ≤ (b.refill (b.lastRefill + s * second)).tokens ↔ waitSecs perMin b ≤ s := by
  have hpos : (0 : ℚ) < perMin := by exact_mod_cast hperMin
  have hone : (1 : ℚ) ≤ perMin := by exact_mod_cast hperMin
  have htokens := congrArg Level.amount (b.level_refill (b.lastRefill + s * second))
  change (b.refill (b.lastRefill + s * second)).tokens = _ at htokens
  have hflow : rate perMin * (((b.lastRefill + s * second : ℤ) : ℚ) - b.lastRefill) =
      perMin * s / 60 := by
    rw [rate, minute, second]
    push_cast
    ring
  rw [htokens, Level.refilled, Bucket.level, hlimit.maxTokens, hlimit.refillRate, le_min_iff, hflow,
    and_iff_right hone, waitSecs, div_le_iff₀ hpos]
  constructor <;> intro h <;> linarith

namespace Limiter

variable {perMin : ℤ} {l l' : Limiter} {req : Request}

/-- The buckets have the limit of the limiter. -/
structure HasLimit (perMin : ℤ) (l : Limiter) : Prop where
  perMin_eq : l.perMin = perMin
  buckets : ∀ key b, l.buckets key = some b → b.HasLimit perMin

theorem HasLimit.bucket (h : HasLimit perMin l) (req : Request) :
    (l.bucket req).HasLimit perMin := by
  unfold Registry.bucket
  cases hb : l.buckets req.key with
  | none =>
    rw [Option.getD_none, h.perMin_eq]
    exact Bucket.hasLimit_new perMin _
  | some b => exact h.buckets req.key b hb

theorem HasLimit.allow (h : HasLimit perMin l) (req : Request) :
    HasLimit perMin (l.allow req).2 := by
  refine ⟨h.perMin_eq, fun key b hb => ?_⟩
  by_cases hkey : key = req.key
  · subst hkey
    obtain rfl := Option.some.inj ((l.buckets_allow_self req).symm.trans hb)
    exact (h.bucket req).allow req.now
  · rw [l.buckets_allow_of_ne hkey] at hb
    exact h.buckets key b hb

theorem middleware_of_le (hkey : req.key ≠ [])
    (hone : 1 ≤ ((l.bucket req).refill req.now).tokens) :
    l.middleware req = (.next, (l.allow req).2) := by
  have hok : (l.allow req).1.1 = true := by
    rw [Registry.allow, Bucket.allow_of_le hone]
  unfold middleware
  dsimp only
  rw [if_neg hkey, hok, if_neg (by decide)]

theorem middleware_of_lt (hkey : req.key ≠ [])
    (hone : ((l.bucket req).refill req.now).tokens < 1) :
    l.middleware req =
      (.error 429 (decimal (retrySecs ((l.bucket req).refill req.now)))
        (lit "rate limit exceeded\n"), (l.allow req).2) := by
  have hres : (l.allow req).1 = (false, ((l.bucket req).refill req.now).waitNs) := by
    rw [Registry.allow, Bucket.allow_of_lt hone]
  unfold middleware
  dsimp only
  rw [if_neg hkey, hres, if_pos rfl]
  rfl

theorem middleware_eq_next_iff (hkey : req.key ≠ []) :
    (l.middleware req).1 = .next ↔ 1 ≤ ((l.bucket req).refill req.now).tokens := by
  constructor
  · intro hnext
    by_contra hone
    rw [middleware_of_lt hkey (not_le.mp hone)] at hnext
    cases hnext
  · intro hone
    rw [middleware_of_le hkey hone]

/-- What `Middleware` does to the buckets. -/
theorem snd_middleware (l : Limiter) (req : Request) :
    (l.middleware req).2 = if req.key = [] then l else (l.allow req).2 := by
  unfold middleware
  dsimp only
  split_ifs <;> rfl

theorem HasLimit.middleware (h : HasLimit perMin l) (req : Request) :
    HasLimit perMin (l.middleware req).2 := by
  rw [snd_middleware]
  split_ifs
  · exact h
  · exact h.allow req

theorem hasLimit_run (perMin : ℤ) (reqs : List Request) : HasLimit perMin (run perMin reqs) :=
  invariant middleware (fun _ _ => True) (fun _ l => HasLimit perMin l)
    ⟨rfl, fun _ _ hb => by cases hb⟩ (fun _ _ req _ h => h.middleware req)
    (List.pairwise_of_forall fun _ _ => trivial)

/-- Requests for other keys leave the bucket of a key alone. -/
theorem buckets_after (l : Limiter) {key : List UInt8} {others : List Request}
    (hothers : ∀ y ∈ others, y.key ≠ key) :
    (after middleware l others).buckets key = l.buckets key := by
  induction others generalizing l with
  | nil => rfl
  | cons y others ih =>
    obtain ⟨hy, hothers⟩ := List.forall_mem_cons.mp hothers
    rw [after, ih _ hothers, snd_middleware]
    split_ifs
    · rfl
    · exact l.buckets_allow_of_ne hy.symm

end Limiter

/-! ### The main result -/

/-- **What `Retry-After` is worth.**  After any requests, one for an ICCID is refused and told to
come back after `s` seconds.  It does, without any for this ICCID in between: it passes iff the
time until the next token was no more than a second, or a whole number of seconds. -/
theorem retryAfter_iff (perMin : ℤ) (hperMin : 1 ≤ perMin) (reqs others : List Request)
    (req req' : Request) (s : ℕ) (body : List UInt8)
    (hrefused : ((Limiter.run perMin reqs).middleware req).1 = .error 429 (decimal s) body)
    (hothers : ∀ y ∈ others, y.key ≠ req.key) (hkey : req'.key = req.key)
    (hnow : req'.now = req.now + s * second) :
    ∃ b, (Limiter.run perMin (reqs ++ [req])).buckets req.key = some b ∧
      (((Limiter.run perMin (reqs ++ req :: others)).middleware req').1 = .next ↔
        waitSecs perMin b ≤ 1 ∨ ∃ k : ℤ, waitSecs perMin b = k) := by
  have hne : req.key ≠ [] := by
    intro hnil
    rw [Limiter.middleware, if_pos hnil] at hrefused
    cases hrefused
  have hlimit := Limiter.hasLimit_run perMin reqs
  have hrun : ∀ rest, Limiter.run perMin (reqs ++ rest) =
      after Limiter.middleware (Limiter.run perMin reqs) rest := after_append _ _ reqs
  rw [hrun, hrun]
  generalize Limiter.run perMin reqs = l at hrefused hlimit ⊢
  -- the bucket, as the refused request leaves it
  have hlt : ((l.bucket req).refill req.now).tokens < 1 := by
    by_contra hle
    rw [Limiter.middleware_of_le hne (not_lt.mp hle)] at hrefused
    cases hrefused
  have hmid := Limiter.middleware_of_lt hne hlt
  have hbucket : (l.middleware req).2.buckets req.key = some ((l.bucket req).refill req.now) := by
    rw [hmid, Registry.buckets_allow_self, Bucket.allow_of_lt hlt]
  have hlimit' := (hlimit.bucket req).refill req.now
  refine ⟨_, hbucket, ?_⟩
  -- what it was told
  have hs : (s : ℤ) = max 1 ⌊waitSecs perMin ((l.bucket req).refill req.now)⌋ := by
    rw [hmid, ← Int.toNat_of_nonneg (retrySecs_nonneg _)] at hrefused
    injection hrefused with _ hdecimal _
    rw [← decimal_inj hdecimal, Int.toNat_of_nonneg (retrySecs_nonneg _),
      retrySecs_eq hperMin hlimit'.refillRate hlt]
  -- and the bucket as the next request finds it
  have hfound : (after Limiter.middleware (l.middleware req).2 others).bucket req' =
      (l.bucket req).refill req.now := by
    rw [Registry.bucket, hkey, Limiter.buckets_after _ hothers, hbucket, Option.getD_some]
  calc ((after Limiter.middleware l (req :: others)).middleware req').1 = .next
    _ ↔ 1 ≤ (((l.bucket req).refill req.now).refill (req.now + s * second)).tokens := by
      rw [after, Limiter.middleware_eq_next_iff (hkey ▸ hne), hfound, hnow]
    _ ↔ waitSecs perMin ((l.bucket req).refill req.now) ≤ (s : ℤ) :=
      one_le_refill_iff hperMin hlimit' s
    _ ↔ _ := by rw [hs, le_max_floor_iff]

/-- An empty bucket of one token a minute fills in sixty seconds. -/
theorem retryAfter_iff_minute :
    ((Limiter.run 1 [⟨[0x31], 0, 0, by decide⟩, ⟨[0x31], 0, 0, by decide⟩]).middleware
      ⟨[0x31], 0, 60 * second, by decide⟩).1 = .next := by
  have hrefused : ((Limiter.run 1 [⟨[0x31], 0, 0, by decide⟩]).middleware
      ⟨[0x31], 0, 0, by decide⟩).1 =
        .error 429 (decimal (60 : ℕ)) (lit "rate limit exceeded\n") := by
    decide +kernel
  obtain ⟨b, hb, hiff⟩ := retryAfter_iff 1 le_rfl [⟨[0x31], 0, 0, by decide⟩] []
    ⟨[0x31], 0, 0, by decide⟩ ⟨[0x31], 0, 60 * second, by decide⟩ 60 _ hrefused
    (List.forall_mem_nil _) rfl (by decide)
  have hempty : (Limiter.run 1 [⟨[0x31], 0, 0, by decide⟩, ⟨[0x31], 0, 0, by decide⟩]).buckets
      [0x31] = some ⟨0, 1, 1 / 60000000000, 0⟩ := by
    decide +kernel
  obtain rfl := Option.some.inj (hempty.symm.trans hb)
  exact hiff.mpr (.inr ⟨60, by decide +kernel⟩)

/-- With half a second of it gone, the request is told to come back in `59` seconds: half a second
too soon. -/
theorem not_retryAfter :
    ((Limiter.run 1 [⟨[0x31], 0, 0, by decide⟩]).middleware
        ⟨[0x31], 0, 500000000, by decide⟩).1 =
      .error 429 (decimal 59) (lit "rate limit exceeded\n") ∧
    ((Limiter.run 1 [⟨[0x31], 0, 0, by decide⟩, ⟨[0x31], 0, 500000000, by decide⟩]).middleware
        ⟨[0x31], 0, 500000000 + 59 * second, by decide⟩).1 =
      .error 429 (decimal 1) (lit "rate limit exceeded\n") := by
  decide +kernel

end SmsGate.Ratelimit
