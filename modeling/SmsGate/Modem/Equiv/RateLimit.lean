import SmsGate.Modem.RateLimit
import SmsGate.Prog.SlidingWindow
import Mathlib.Algebra.Order.Ring.Int

/-!
# The limiter of a SIM admits by its three windows

What a limiter has to know is the list of the calls that it admitted.  It keeps less: each window
forgets what has left it, at times of its own.  `Tracks` says that what a window has kept is live at
some time iff it was admitted and is live then; every call keeps this (`Tracks.tryAll`), and so does
every sequence of calls at non-decreasing times (`tracks_calls`).  The outcome is `tryAll_spec`.
-/

namespace SmsGate.Modem

open SlidingWindow

/-- The three windows. -/
inductive Span where
  | minute
  | hour
  | day
  deriving DecidableEq

/-- The length of a window. -/
def Span.nanos : Span → ℤ
  | minute => 60 * 1000000000
  | hour => 3600 * 1000000000
  | day => 24 * 3600 * 1000000000

theorem Span.nanos_pos (span : Span) : 0 < span.nanos := by
  cases span <;> decide

/-- The limit of a window. -/
def RateLimitConfig.limit (cfg : RateLimitConfig) : Span → ℤ
  | .minute => cfg.perMin
  | .hour => cfg.perHour
  | .day => cfg.perDay

/-- The windows of a limiter. -/
def SIMRateLimiter.window (r : SIMRateLimiter) : Span → Window
  | .minute => r.perMin
  | .hour => r.perHour
  | .day => r.perDay

/-! ### One call -/

/-- A window has room at a time. -/
def Window.HasRoom (w : Window) (now : ℤ) : Prop :=
  ((live w.duration now w.events).length : ℤ) < w.limit

instance (w : Window) (now : ℤ) : Decidable (w.HasRoom now) :=
  inferInstanceAs (Decidable (_ < _))

/-- A window after an event that it admits. -/
def Window.record (w : Window) (now : ℤ) : Window :=
  { w with events := live w.duration now w.events ++ [now] }

theorem wouldAllow_iff {w : Window} {now : ℤ} : wouldAllow w now = true ↔ w.HasRoom now := by
  unfold wouldAllow Window.HasRoom live
  dsimp only
  rw [List.countP_eq_length_filter, decide_eq_true_eq]

theorem Window.allow_of_hasRoom {w : Window} {now : ℤ} (h : w.HasRoom now) :
    w.allow now = (true, w.record now) := by
  unfold Window.allow
  exact if_neg (not_le.mpr h)

/-- A limiter after a call that it admits. -/
def SIMRateLimiter.record (r : SIMRateLimiter) (now : ℤ) : SIMRateLimiter where
  perMin := r.perMin.record now
  perHour := r.perHour.record now
  perDay := r.perDay.record now

@[simp] theorem SIMRateLimiter.window_record (r : SIMRateLimiter) (now : ℤ) (span : Span) :
    (r.record now).window span = (r.window span).record now := by
  cases span <;> rfl

theorem SIMRateLimiter.forall_hasRoom {r : SIMRateLimiter} {now : ℤ} :
    (∀ span, (r.window span).HasRoom now) ↔
      wouldAllow r.perMin now && wouldAllow r.perHour now && wouldAllow r.perDay now := by
  rw [Bool.and_eq_true, Bool.and_eq_true, wouldAllow_iff, wouldAllow_iff, wouldAllow_iff]
  constructor
  · intro h
    exact ⟨⟨h .minute, h .hour⟩, h .day⟩
  · rintro ⟨⟨hmin, hhour⟩, hday⟩ span
    cases span with
    | minute => exact hmin
    | hour => exact hhour
    | day => exact hday

/-- A call for which every window has room is admitted, and recorded in every window. -/
theorem SIMRateLimiter.tryAll_of_hasRoom {r : SIMRateLimiter} {now : ℤ}
    (h : ∀ span, (r.window span).HasRoom now) : r.tryAll now = (true, r.record now) := by
  unfold SIMRateLimiter.tryAll
  -- what `wouldAllow` has counted is what `Allow` finds
  have hmin : r.perMin.allow now = (true, r.perMin.record now) :=
    Window.allow_of_hasRoom (h .minute)
  have hhour : r.perHour.allow now = (true, r.perHour.record now) :=
    Window.allow_of_hasRoom (h .hour)
  have hday : r.perDay.allow now = (true, r.perDay.record now) :=
    Window.allow_of_hasRoom (h .day)
  rw [if_neg (not_not.mpr (SIMRateLimiter.forall_hasRoom.mp h)), hmin, hhour, hday]
  rfl

/-- Any other call is not, and changes nothing. -/
theorem SIMRateLimiter.tryAll_of_not_hasRoom {r : SIMRateLimiter} {now : ℤ}
    (h : ¬ ∀ span, (r.window span).HasRoom now) : r.tryAll now = (false, r) := by
  unfold SIMRateLimiter.tryAll
  exact if_pos fun hall => h (SIMRateLimiter.forall_hasRoom.mpr hall)

/-! ### What a limiter knows of the calls it admitted -/

/-- What a limiter has kept at a time `last` is what is live of the calls that it admitted, then and
later. -/
structure Tracks (cfg : RateLimitConfig) (admitted : List ℤ) (last : ℤ) (r : SIMRateLimiter) :
    Prop where
  limit : ∀ span, (r.window span).limit = cfg.limit span
  duration : ∀ span, (r.window span).duration = span.nanos
  live_eq : ∀ span now, last ≤ now →
    live span.nanos now (r.window span).events = live span.nanos now admitted
  bounded : ∀ span, Bounded span.nanos (cfg.limit span).toNat admitted

variable {cfg : RateLimitConfig} {admitted : List ℤ} {last now : ℤ} {r : SIMRateLimiter}

theorem tracks_new (cfg : RateLimitConfig) (last : ℤ) :
    Tracks cfg [] last (newSIMRateLimiter cfg) where
  limit span := by cases span <;> rfl
  duration span := by cases span <;> rfl
  live_eq span now _ := by cases span <;> rfl
  bounded _ := bounded_nil

theorem Tracks.mono {last' : ℤ} (h : Tracks cfg admitted last r) (hlast : last ≤ last') :
    Tracks cfg admitted last' r where
  limit := h.limit
  duration := h.duration
  live_eq span now hnow := h.live_eq span now (hlast.trans hnow)
  bounded := h.bounded

/-- The windows have room iff the limits leave room for one more. -/
theorem Tracks.hasRoom_iff (h : Tracks cfg admitted last r) (hnow : last ≤ now) (span : Span) :
    (r.window span).HasRoom now ↔
      ((live span.nanos now admitted).length : ℤ) < cfg.limit span := by
  unfold Window.HasRoom
  rw [h.limit, h.duration, h.live_eq span now hnow]

/-- A call that is admitted. -/
theorem Tracks.record (h : Tracks cfg admitted last r) (hnow : last ≤ now)
    (hroom : ∀ span, (r.window span).HasRoom now) :
    Tracks cfg (admitted ++ [now]) now (r.record now) where
  limit span := by
    rw [r.window_record]
    exact h.limit span
  duration span := by
    rw [r.window_record]
    exact h.duration span
  live_eq span now' hnow' := by
    rw [r.window_record]
    unfold Window.record
    -- the events that the window drops now are not live at any later time
    rw [h.duration, live_append, live_live hnow', h.live_eq span now' (hnow.trans hnow'),
      ← live_append]
  bounded span := by
    refine (h.bounded span).concat ?_
    have hlt := (h.hasRoom_iff hnow span).mp (hroom span)
    omega

/-- A call, admitted or not. -/
theorem Tracks.tryAll (h : Tracks cfg admitted last r) (hnow : last ≤ now) :
    Tracks cfg (admitted ++ if (r.tryAll now).1 then [now] else []) now (r.tryAll now).2 := by
  by_cases hroom : ∀ span, (r.window span).HasRoom now
  · rw [SIMRateLimiter.tryAll_of_hasRoom hroom]
    exact h.record hnow hroom
  · rw [SIMRateLimiter.tryAll_of_not_hasRoom hroom]
    simpa using h.mono hnow

theorem Tracks.tryAll_iff (h : Tracks cfg admitted last r) (hnow : last ≤ now) :
    (r.tryAll now).1 = true ↔
      ∀ span, ((live span.nanos now admitted).length : ℤ) < cfg.limit span := by
  rw [← forall_congr' (h.hasRoom_iff hnow)]
  by_cases hroom : ∀ span, (r.window span).HasRoom now
  · rw [SIMRateLimiter.tryAll_of_hasRoom hroom]
    exact iff_of_true rfl hroom
  · rw [SIMRateLimiter.tryAll_of_not_hasRoom hroom]
    exact iff_of_false nofun hroom

/-! ### Sequences of calls -/

/-- A sequence of calls: their times and answers, and the limiter after them. -/
def SIMRateLimiter.calls (r : SIMRateLimiter) : List ℤ → List (ℤ × Bool) × SIMRateLimiter
  | [] => ([], r)
  | now :: nows =>
    let (ok, r) := r.tryAll now
    let (log, r) := r.calls nows
    ((now, ok) :: log, r)

/-- The times of the calls that were admitted. -/
def admittedTimes (log : List (ℤ × Bool)) : List ℤ := (log.filter Prod.snd).map Prod.fst

theorem admittedTimes_cons (now : ℤ) (ok : Bool) (log : List (ℤ × Bool)) :
    admittedTimes ((now, ok) :: log) = (if ok then [now] else []) ++ admittedTimes log := by
  cases ok <;> rfl

theorem tracks_calls {nows : List ℤ} (h : Tracks cfg admitted last r)
    (hlast : ∀ now ∈ nows, last ≤ now) (hsorted : nows.Pairwise (· ≤ ·)) :
    ∃ last', (∀ now, last ≤ now → (∀ t ∈ nows, t ≤ now) → last' ≤ now) ∧
      Tracks cfg (admitted ++ admittedTimes (r.calls nows).1) last' (r.calls nows).2 := by
  induction nows generalizing admitted last r with
  | nil =>
    refine ⟨last, fun now hle _ => hle, ?_⟩
    rw [show admittedTimes (r.calls []).1 = [] from rfl, List.append_nil]
    exact h
  | cons now nows ih =>
    rw [List.pairwise_cons] at hsorted
    obtain ⟨last', hle, htracks⟩ :=
      ih (h.tryAll (hlast now List.mem_cons_self)) hsorted.1 hsorted.2
    refine ⟨last', fun t _ ht => ?_, ?_⟩
    · exact hle t (ht now List.mem_cons_self) fun u hu => ht u (List.mem_cons_of_mem now hu)
    · rw [List.append_assoc, ← admittedTimes_cons] at htracks
      exact htracks

/-- A limiter that was called in the past tracks what it admitted. -/
theorem tracks_calls_new (cfg : RateLimitConfig) {nows : List ℤ} {now : ℤ}
    (hsorted : (nows ++ [now]).Pairwise (· ≤ ·)) :
    Tracks cfg (admittedTimes ((newSIMRateLimiter cfg).calls nows).1) now
      ((newSIMRateLimiter cfg).calls nows).2 := by
  obtain ⟨hnows, _, hnow⟩ := List.pairwise_append.mp hsorted
  have hle : ∀ t ∈ nows, t ≤ now := fun t ht => hnow t ht now (List.mem_singleton_self now)
  -- any time up to the first call will do to start with
  obtain ⟨first, hfirst, hfirstNow⟩ : ∃ first, (∀ t ∈ nows, first ≤ t) ∧ first ≤ now := by
    cases nows with
    | nil => exact ⟨now, nofun, le_rfl⟩
    | cons t nows =>
      rw [List.pairwise_cons] at hnows
      refine ⟨t, fun u hu => ?_, hle t List.mem_cons_self⟩
      rcases List.mem_cons.mp hu with rfl | hu
      · exact le_rfl
      · exact hnows.1 u hu
  obtain ⟨last, hlast, htracks⟩ := tracks_calls (tracks_new cfg first) hfirst hnows
  exact htracks.mono (hlast now hfirstNow hle)

theorem SIMRateLimiter.calls_concat (r : SIMRateLimiter) (nows : List ℤ) (now : ℤ) :
    (r.calls (nows ++ [now])).1 =
      (r.calls nows).1 ++ [(now, ((r.calls nows).2.tryAll now).1)] := by
  induction nows generalizing r with
  | nil => rfl
  | cons t nows ih => exact congrArg (List.cons _) (ih _)

theorem admittedTimes_concat (log : List (ℤ × Bool)) (now : ℤ) (ok : Bool) :
    admittedTimes (log ++ [(now, ok)]) = admittedTimes log ++ if ok then [now] else [] := by
  unfold admittedTimes
  rw [List.filter_append, List.map_append]
  cases ok <;> rfl

/-- **The limiter admits by its three windows.**  Take a limiter with limits of at least one, any
calls at non-decreasing times, and one more call.  It is admitted iff each window holds fewer
admitted calls than its limit; it is then recorded once in each window, and otherwise no window
changes; and no interval of a window's length holds more admitted calls than its limit. -/
theorem tryAll_spec (cfg : RateLimitConfig) (hcfg : ∀ span, 1 ≤ cfg.limit span) (nows : List ℤ)
    (now : ℤ) (hsorted : (nows ++ [now]).Pairwise (· ≤ ·)) :
    let before := (newSIMRateLimiter cfg).calls nows
    let r := before.2
    ((r.tryAll now).1 = true ↔ ∀ span,
      (((admittedTimes before.1).filter fun t => now - span.nanos < t).length : ℤ) <
        cfg.limit span) ∧
    ((r.tryAll now).1 = true → ∀ span, ((r.tryAll now).2.window span).events =
      (r.window span).events.filter (fun t => now - span.nanos < t) ++ [now]) ∧
    ((r.tryAll now).1 = false → ∀ span, (r.tryAll now).2.window span = r.window span) ∧
    ∀ span x, (((admittedTimes ((newSIMRateLimiter cfg).calls (nows ++ [now])).1).filter
      fun t => x < t ∧ t ≤ x + span.nanos).length : ℤ) ≤ cfg.limit span := by
  intro before r
  have htracks := tracks_calls_new cfg hsorted
  refine ⟨htracks.tryAll_iff le_rfl, fun hok span => ?_, fun hno span => ?_, fun span x => ?_⟩
  · have hroom : ∀ span, (r.window span).HasRoom now := by
      by_contra hroom
      rw [SIMRateLimiter.tryAll_of_not_hasRoom hroom] at hok
      cases hok
    rw [SIMRateLimiter.tryAll_of_hasRoom hroom, r.window_record]
    unfold Window.record
    rw [htracks.duration]
    rfl
  · have hroom : ¬ ∀ span, (r.window span).HasRoom now := by
      intro hroom
      rw [SIMRateLimiter.tryAll_of_hasRoom hroom] at hno
      cases hno
    rw [SIMRateLimiter.tryAll_of_not_hasRoom hroom]
  · have hbounded := (htracks.tryAll le_rfl).bounded span x
    rw [← admittedTimes_concat, ← SIMRateLimiter.calls_concat] at hbounded
    -- `Bounded` counts with `toNat`, which is the limit itself because the limit is positive
    have hlimit := hcfg span
    unfold within at hbounded
    omega

/-- Two a minute: the third call within a minute is refused, and admitted when the first is a
minute old. -/
theorem tryAll_spec_two :
    let cfg : RateLimitConfig := ⟨2, 10, 100⟩
    let nows : List ℤ := [0, 1000000000, 2000000000]
    (nows ++ [60000000000]).Pairwise (· ≤ ·) ∧
      admittedTimes ((newSIMRateLimiter cfg).calls nows).1 = [0, 1000000000] ∧
      (((newSIMRateLimiter cfg).calls nows).2.tryAll 60000000000).1 = true ∧
      ∀ span x, (((admittedTimes ((newSIMRateLimiter cfg).calls (nows ++ [60000000000])).1).filter
        fun t => x < t ∧ t ≤ x + span.nanos).length : ℤ) ≤ cfg.limit span := by
  have hcfg : ∀ span, 1 ≤ RateLimitConfig.limit ⟨2, 10, 100⟩ span := by
    intro span
    cases span <;> decide
  exact ⟨by decide, by decide, by decide, (tryAll_spec _ hcfg _ _ (by decide)).2.2.2⟩

/-! ### The registry of limiters -/

/-- A call of the registry, with its time and its answer. -/
inductive LimiterCall where
  | register (iccid : List UInt8) (now : ℤ)
  | allow (iccid : List UInt8) (now : ℤ) (ok : Bool)
  deriving DecidableEq

/-- The registry after some calls, the newest first. -/
def registryAfter (cfg : RateLimitConfig) : List LimiterCall → RateLimiterRegistry
  | [] => .new
  | .register iccid _ :: past => (registryAfter cfg past).register iccid cfg
  | .allow iccid now _ :: past => ((registryAfter cfg past).allow iccid now).2

/-- The times of the calls for an ICCID that were admitted, the oldest first. -/
def admittedBy (iccid : List UInt8) : List LimiterCall → List ℤ
  | [] => []
  | .register _ _ :: past => admittedBy iccid past
  | .allow i now ok :: past =>
    admittedBy iccid past ++ if i = iccid ∧ ok then [now] else []

/-- Those of them that came after the ICCID was last registered. -/
def admittedSince (iccid : List UInt8) : List LimiterCall → List ℤ
  | [] => []
  | .register i _ :: past => if i = iccid then [] else admittedSince iccid past
  | .allow i now ok :: past =>
    admittedSince iccid past ++ if i = iccid ∧ ok then [now] else []

/-- Those that came before. -/
def admittedBefore (iccid : List UInt8) : List LimiterCall → List ℤ
  | [] => []
  | .register i _ :: past => if i = iccid then admittedBy iccid past else admittedBefore iccid past
  | .allow _ _ _ :: past => admittedBefore iccid past

/-- The answers are those of the registry. -/
def answered (cfg : RateLimitConfig) : List LimiterCall → Bool
  | [] => true
  | .register _ _ :: past => answered cfg past
  | .allow iccid now ok :: past =>
    ok = ((registryAfter cfg past).allow iccid now).1 && answered cfg past

/-- The calls of a registry up to a time, the newest first: an ICCID is registered before it is
asked for, and the registry gives the answers. -/
inductive LimiterRun (cfg : RateLimitConfig) : List LimiterCall → ℤ → Prop
  | start (now : ℤ) : LimiterRun cfg [] now
  | wait {calls : List LimiterCall} {now later : ℤ} (h : LimiterRun cfg calls now)
      (hle : now ≤ later) : LimiterRun cfg calls later
  | register {calls : List LimiterCall} {now : ℤ} (h : LimiterRun cfg calls now)
      (iccid : List UInt8) : LimiterRun cfg (.register iccid now :: calls) now
  | allow {calls : List LimiterCall} {now : ℤ} (h : LimiterRun cfg calls now)
      {iccid : List UInt8} (hreg : ∃ t, .register iccid t ∈ calls) :
      LimiterRun cfg (.allow iccid now ((registryAfter cfg calls).allow iccid now).1 :: calls) now

section Registry

variable {calls : List LimiterCall} {iccid : List UInt8}

theorem registryAfter_of_mem (h : ∃ t, .register iccid t ∈ calls) :
    ∃ lim, registryAfter cfg calls iccid = some lim := by
  induction calls with
  | nil =>
    obtain ⟨t, ht⟩ := h
    cases ht
  | cons call calls ih =>
    obtain ⟨t, ht⟩ := h
    cases call with
    | register i t' =>
      by_cases hi : iccid = i
      · subst hi
        exact ⟨_, Function.update_self ..⟩
      · obtain ⟨lim, hlim⟩ := ih ⟨t, (List.mem_cons.mp ht).resolve_left fun heq => by
          cases heq
          exact hi rfl⟩
        exact ⟨lim, (Function.update_of_ne hi ..).trans hlim⟩
    | allow i t' ok =>
      obtain ⟨lim, hlim⟩ := ih ⟨t, (List.mem_cons.mp ht).resolve_left nofun⟩
      unfold registryAfter RateLimiterRegistry.allow
      by_cases hi : iccid = i
      · subst hi
        rw [hlim]
        exact ⟨_, Function.update_self ..⟩
      · cases registryAfter cfg calls i with
        | none => exact ⟨lim, hlim⟩
        | some lim' => exact ⟨lim, (Function.update_of_ne hi ..).trans hlim⟩

/-- Every limiter tracks what it has admitted since it was registered. -/
theorem LimiterRun.tracks (h : LimiterRun cfg calls now) {lim : SIMRateLimiter}
    (hlim : registryAfter cfg calls iccid = some lim) :
    Tracks cfg (admittedSince iccid calls) now lim := by
  induction h generalizing lim with
  | start now => cases hlim
  | wait _ hle ih => exact (ih hlim).mono hle
  | @register calls now _ i ih =>
    unfold admittedSince
    unfold registryAfter RateLimiterRegistry.register at hlim
    by_cases hi : i = iccid
    · subst hi
      rw [Function.update_self] at hlim
      cases hlim
      -- `Register` replaces the limiter, so nothing has been admitted since
      rw [if_pos rfl]
      exact tracks_new cfg now
    · rw [Function.update_of_ne (Ne.symm hi)] at hlim
      rw [if_neg hi]
      exact ih hlim
  | @allow calls now _ i hreg ih =>
    obtain ⟨lim₀, hlim₀⟩ := registryAfter_of_mem hreg
    unfold admittedSince
    unfold registryAfter at hlim
    unfold RateLimiterRegistry.allow at hlim ⊢
    rw [hlim₀] at hlim ⊢
    by_cases hi : i = iccid
    · subst hi
      cases (Function.update_self ..).symm.trans hlim
      simpa only [true_and] using (ih hlim₀).tryAll le_rfl
    -- a call for another SIM: its limiter is the one that changes
    · rw [if_neg fun h => hi h.1, List.append_nil]
      exact ih ((Function.update_of_ne (Ne.symm hi) ..).symm.trans hlim)

/-- Nothing is admitted for an ICCID that was never registered. -/
theorem LimiterRun.admittedSince_eq_nil (h : LimiterRun cfg calls now)
    (hreg : ¬ ∃ t, .register iccid t ∈ calls) : admittedSince iccid calls = [] := by
  induction h with
  | start now => rfl
  | wait _ _ ih => exact ih hreg
  | @register calls now _ i ih =>
    unfold admittedSince
    split_ifs
    · rfl
    · exact ih fun ⟨t, ht⟩ => hreg ⟨t, List.mem_cons_of_mem _ ht⟩
  | @allow calls now _ i hi ih =>
    have hne : i ≠ iccid := by
      rintro rfl
      obtain ⟨t, ht⟩ := hi
      exact hreg ⟨t, List.mem_cons_of_mem _ ht⟩
    unfold admittedSince
    rw [if_neg fun h => hne h.1, List.append_nil]
    exact ih fun ⟨t, ht⟩ => hreg ⟨t, List.mem_cons_of_mem _ ht⟩

theorem LimiterRun.bounded_since (h : LimiterRun cfg calls now) (span : Span) :
    Bounded span.nanos (cfg.limit span).toNat (admittedSince iccid calls) := by
  by_cases hreg : ∃ t, .register iccid t ∈ calls
  · obtain ⟨lim, hlim⟩ : ∃ lim, registryAfter cfg calls iccid = some lim :=
      registryAfter_of_mem hreg
    exact (h.tracks hlim).bounded span
  · rw [h.admittedSince_eq_nil hreg]
    exact bounded_nil

theorem admittedBy_eq_append (iccid : List UInt8) (calls : List LimiterCall) :
    admittedBy iccid calls = admittedBefore iccid calls ++ admittedSince iccid calls := by
  induction calls with
  | nil => rfl
  | cons call calls ih =>
    cases call with
    | register i t =>
      unfold admittedBy admittedBefore admittedSince
      split_ifs
      · exact (List.append_nil _).symm
      · exact ih
    | allow i t ok =>
      unfold admittedBy admittedBefore admittedSince
      rw [ih, List.append_assoc]

/-- The room that the limiter of an ICCID finds in a window at some time: the limit without the
messages that it has admitted itself and that still count. -/
def room (cfg : RateLimitConfig) (span : Span) (iccid : List UInt8) (t : ℤ)
    (past : List LimiterCall) : ℕ :=
  (cfg.limit span).toNat - (live span.nanos t (admittedSince iccid past)).length

end Registry

end SmsGate.Modem
