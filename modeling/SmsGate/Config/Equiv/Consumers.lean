import SmsGate.Config.Consumers

/-!
# What an accepted configuration can do

`Load` replaces only zeros and checks no number, so a configuration that it accepts can hold any
other number.  `load_safe_iff` says for which numbers in the YAML text the tickers get positive
durations that did not overflow and the windows of the rate limits can be made.

* `Interval`: a duration that a ticker gets, with the number and the unit that it is made of;
* `Safe`: what the consumers of a configuration need;
* `InRange`: what the numbers in the YAML text have to be.
-/

namespace SmsGate.Config

open Go Go.Strconv

/-! ### 64-bit arithmetic -/

theorem nonpos_iff (x : Int64) : x ≤ 0 ↔ x.toInt ≤ 0 := by
  rw [Int64.le_iff_toInt_le]
  rfl

theorem bmod_eq_self_iff (v : ℤ) : v.bmod (2 ^ 64) = v ↔ -2 ^ 63 ≤ v ∧ v ≤ 2 ^ 63 - 1 := by
  rw [Int.bmod_def]
  split_ifs <;> omega

/-- When a product does not overflow. -/
theorem toInt_mul_eq_iff (x u : Int64) :
    (x * u).toInt = x.toInt * u.toInt ↔
      -2 ^ 63 ≤ x.toInt * u.toInt ∧ x.toInt * u.toInt ≤ 2 ^ 63 - 1 := by
  rw [Int64.toInt_mul]
  exact bmod_eq_self_iff (x.toInt * u.toInt)

theorem newTicker_ok_iff {ε : Type} (d : Int64) :
    (newTicker d : Outcome ε Unit) = .ok () ↔ 0 < d.toInt := by
  unfold newTicker
  split_ifs with hd
  · have hle := (nonpos_iff d).mp hd
    simp only [false_iff]
    omega
  · have hlt := mt (nonpos_iff d).mpr hd
    simp only [true_iff]
    omega

/-- When the slice of a window can be made. -/
theorem newWindowEvents_ok_iff {ε : Type} (p : Platform) {limit : Int64}
    (hlimit : 1 ≤ limit.toInt) :
    (newWindowEvents p limit : Outcome ε Unit) = .ok () ↔
      24 * (limit.toInt + 1) ≤ p.maxAlloc.toNat := by
  have hmax := p.maxAlloc.toNat_lt
  have hlt := limit.toInt_lt
  have hneg : limit + 1 < 0 ↔ (limit + 1).toInt < 0 := Int64.lt_iff_toInt_lt
  have hcap : (limit + 1).toInt = (limit.toInt + 1).bmod (2 ^ 64) := Int64.toInt_add limit 1
  -- the capacity overflows for the largest limit only, which is too large anyway
  rw [Int.bmod_def] at hcap
  unfold newWindowEvents makeTimes sizeofTime
  split_ifs with hpanic
  · rw [hneg] at hpanic
    simp only [false_iff]
    split_ifs at hcap <;> omega
  · rw [hneg] at hpanic
    simp only [true_iff]
    split_ifs at hcap <;> omega

/-! ### What the consumers need -/

/-- A duration that is handed to a ticker, with the number and the unit that it is made of. -/
structure Interval where
  number : Int64
  unit : Int64
  handed : Int64

/-- The duration is positive, and its product did not overflow. -/
structure Interval.Ok (i : Interval) : Prop where
  exact : (i.number * i.unit).toInt = i.number.toInt * i.unit.toInt
  pos : 0 < i.handed.toInt

/-- The intervals of a configuration. -/
def GatewayConfig.intervals (cfg : GatewayConfig) : List Interval :=
  [⟨cfg.buffer.flushIntervalM, minute, cfg.flushInterval⟩,
    ⟨cfg.tunnel.pingIntervalS, second, cfg.pingInterval⟩,
    ⟨cfg.tunnel.heartbeatIntervalS, second, cfg.heartbeatInterval⟩,
    ⟨cfg.health.keepaliveIntervalS, second, cfg.keepaliveInterval⟩,
    ⟨cfg.health.signalPollIntervalS, second, cfg.signalPollInterval⟩]

/-- The limits of all modems. -/
def GatewayConfig.limits (cfg : GatewayConfig) : List Int64 :=
  cfg.modems.flatMap fun m => m.rateLimit.limits

/-- A limit whose window can be made. -/
structure LimitOk (p : Platform) (limit : Int64) : Prop where
  pos : 1 ≤ limit.toInt
  fits : 24 * (limit.toInt + 1) ≤ p.maxAlloc.toNat

/-- What the consumers of a configuration need. -/
structure Safe (p : Platform) (cfg : GatewayConfig) : Prop where
  intervals : ∀ i ∈ cfg.intervals, i.Ok
  limits : ∀ limit ∈ cfg.limits, 1 ≤ limit.toInt
  /-- Nothing panics. -/
  tickers : ∀ d ∈ cfg.tickers, (newTicker d : Outcome Empty Unit) = .ok ()
  windows : ∀ limit ∈ cfg.limits, (newWindowEvents p limit : Outcome Empty Unit) = .ok ()

/-- The tickers get the durations of the intervals. -/
theorem tickers_eq (cfg : GatewayConfig) : cfg.tickers = cfg.intervals.map Interval.handed := rfl

theorem safe_iff (p : Platform) (cfg : GatewayConfig) :
    Safe p cfg ↔ (∀ i ∈ cfg.intervals, i.Ok) ∧
      ∀ limit ∈ cfg.limits, LimitOk p limit := by
  constructor
  · intro h
    refine ⟨h.intervals, fun limit hlimit => ?_⟩
    have hone := h.limits limit hlimit
    exact ⟨hone, (newWindowEvents_ok_iff p hone).mp (h.windows limit hlimit)⟩
  · rintro ⟨hintervals, hlimits⟩
    refine ⟨hintervals, fun limit hlimit => (hlimits limit hlimit).pos, fun d hd => ?_,
      fun limit hlimit => ?_⟩
    · rw [tickers_eq] at hd
      obtain ⟨i, hi, rfl⟩ := List.mem_map.mp hd
      exact (newTicker_ok_iff i.handed).mpr (hintervals i hi).pos
    · have hok := hlimits limit hlimit
      exact (newWindowEvents_ok_iff p hok.pos).mpr hok.fits

/-! ### What the YAML text has to say -/

/-- A number of seconds that is zero or has a duration. -/
def SecondsOk (x : Int64) : Prop := x = 0 ∨ (1 ≤ x.toInt ∧ x.toInt ≤ 9223372036)

/-- A number of minutes that is zero or has a duration. -/
def MinutesOk (x : Int64) : Prop := x = 0 ∨ (1 ≤ x.toInt ∧ x.toInt ≤ 153722867)

/-- A number of seconds whose duration does not overflow; the worker has a default for one that is
not positive. -/
def SignalOk (x : Int64) : Prop := -9223372036 ≤ x.toInt ∧ x.toInt ≤ 9223372036

/-- The numbers in a YAML text for which nothing goes wrong. -/
structure InRange (p : Platform) (h : Host) (yaml : GatewayConfig) : Prop where
  flush : MinutesOk yaml.buffer.flushIntervalM
  ping : SecondsOk yaml.tunnel.pingIntervalS
  heartbeat : SecondsOk yaml.tunnel.heartbeatIntervalS
  keepalive : SecondsOk yaml.health.keepaliveIntervalS
  /-- The environment can replace the number in the text. -/
  signal : SignalOk (h.signalPollInterval (orInt yaml.health.signalPollIntervalS 30))
  limits : ∀ limit ∈ yaml.limits, limit = 0 ∨ LimitOk p limit

/-! ### From the text to the consumers -/

/-- A default that is in range replaces a zero. -/
theorem orInt_iff {x d : Int64} {P : Int64 → Prop} (hd : P d) :
    P (orInt x d) ↔ x = 0 ∨ P x := by
  unfold orInt
  split_ifs with hx
  · simp only [hx, hd, true_or]
  · simp only [hx, false_or]

theorem ok_product_iff (x u : Int64) :
    Interval.Ok ⟨x, u, x * u⟩ ↔ 0 < x.toInt * u.toInt ∧ x.toInt * u.toInt ≤ 2 ^ 63 - 1 := by
  constructor
  · rintro ⟨hexact, hpos⟩
    have heq : (x * u).toInt = x.toInt * u.toInt := hexact
    have hpos : 0 < (x * u).toInt := hpos
    rw [heq] at hpos
    exact ⟨hpos, ((toInt_mul_eq_iff x u).mp heq).2⟩
  · rintro ⟨hpos, hle⟩
    have heq := (toInt_mul_eq_iff x u).mpr ⟨by omega, hle⟩
    refine ⟨heq, ?_⟩
    show 0 < (x * u).toInt
    rw [heq]
    exact hpos

/-- A number with a default, in a unit of which `most` fit a duration. -/
theorem ok_orInt_iff {x d u : Int64} {most : ℤ} (hd : 1 ≤ d.toInt ∧ d.toInt ≤ most)
    (hmost : ∀ v : ℤ, 0 < v * u.toInt ∧ v * u.toInt ≤ 2 ^ 63 - 1 ↔ 1 ≤ v ∧ v ≤ most) :
    Interval.Ok ⟨orInt x d, u, orInt x d * u⟩ ↔ x = 0 ∨ (1 ≤ x.toInt ∧ x.toInt ≤ most) := by
  rw [ok_product_iff, hmost]
  exact orInt_iff (P := fun y => 1 ≤ y.toInt ∧ y.toInt ≤ most) hd

theorem ok_seconds_iff {x d : Int64} (hd : 1 ≤ d.toInt ∧ d.toInt ≤ 9223372036) :
    Interval.Ok ⟨orInt x d, second, orInt x d * second⟩ ↔ SecondsOk x := by
  refine ok_orInt_iff hd fun v => ?_
  have hunit : second.toInt = 1000000000 := rfl
  rw [hunit]
  omega

theorem ok_minutes_iff {x d : Int64} (hd : 1 ≤ d.toInt ∧ d.toInt ≤ 153722867) :
    Interval.Ok ⟨orInt x d, minute, orInt x d * minute⟩ ↔ MinutesOk x := by
  refine ok_orInt_iff hd fun v => ?_
  have hunit : minute.toInt = 60000000000 := rfl
  rw [hunit]
  omega

/-- The signal poll only has to stay clear of overflow. -/
theorem ok_signal_iff (x : Int64) :
    Interval.Ok ⟨x, second, if x * second ≤ 0 then 30 * second else x * second⟩ ↔
      SignalOk x := by
  unfold SignalOk
  have hunit : second.toInt = 1000000000 := rfl
  have hfits := toInt_mul_eq_iff x second
  rw [hunit] at hfits
  constructor
  · intro h
    have hexact : (x * second).toInt = x.toInt * 1000000000 := h.exact
    have hrange := hfits.mp hexact
    omega
  · intro hx
    refine ⟨hfits.mpr (by omega), ?_⟩
    show 0 < (if x * second ≤ 0 then 30 * second else x * second).toInt
    split_ifs with hneg
    · decide
    · have hlt := mt (nonpos_iff (x * second)).mpr hneg
      omega

/-- The intervals in the text, and after the defaults and the environment. -/
theorem intervals_ok_iff (h : Host) (yaml : GatewayConfig) :
    (∀ i ∈ (applyEnvOverrides h (defaults yaml)).intervals, i.Ok) ↔
      MinutesOk yaml.buffer.flushIntervalM ∧ SecondsOk yaml.tunnel.pingIntervalS ∧
        SecondsOk yaml.tunnel.heartbeatIntervalS ∧ SecondsOk yaml.health.keepaliveIntervalS ∧
          SignalOk (h.signalPollInterval (orInt yaml.health.signalPollIntervalS 30)) := by
  have hflush := ok_minutes_iff (x := yaml.buffer.flushIntervalM) (d := 10) (by decide)
  have hping := ok_seconds_iff (x := yaml.tunnel.pingIntervalS) (d := 30) (by decide)
  have hbeat := ok_seconds_iff (x := yaml.tunnel.heartbeatIntervalS) (d := 60) (by decide)
  have hkeep := ok_seconds_iff (x := yaml.health.keepaliveIntervalS) (d := 60) (by decide)
  have hsignal := ok_signal_iff (h.signalPollInterval (orInt yaml.health.signalPollIntervalS 30))
  rw [← hflush, ← hping, ← hbeat, ← hkeep, ← hsignal]
  unfold GatewayConfig.intervals
  simp only [List.forall_mem_cons, List.not_mem_nil, false_imp_iff, implies_true, and_true]
  rfl

/-- The defaults of the limits are in range on every platform. -/
theorem limitOk_of_le (p : Platform) (limit : Int64) (hpos : 1 ≤ limit.toInt)
    (hle : limit.toInt ≤ 200) : LimitOk p limit := by
  have hlarge := p.large
  exact ⟨hpos, by omega⟩

/-- The limits in the text, and after the defaults and the environment. -/
theorem limits_ok_iff (p : Platform) (h : Host) (yaml : GatewayConfig) :
    (∀ limit ∈ (applyEnvOverrides h (defaults yaml)).limits, LimitOk p limit) ↔
      ∀ limit ∈ yaml.limits, limit = 0 ∨ LimitOk p limit := by
  have hmin := fun x => orInt_iff (x := x) (limitOk_of_le p 3 (by decide) (by decide))
  have hhour := fun x => orInt_iff (x := x) (limitOk_of_le p 30 (by decide) (by decide))
  have hday := fun x => orInt_iff (x := x) (limitOk_of_le p 200 (by decide) (by decide))
  show (∀ limit ∈ (yaml.modems.map ModemConfig.defaults).flatMap fun m => m.rateLimit.limits,
    LimitOk p limit) ↔ _
  unfold GatewayConfig.limits
  induction yaml.modems with
  | nil => simp
  | cons m ms ih =>
    simp only [List.map_cons, List.flatMap_cons, List.forall_mem_append, ih]
    apply and_congr_left'
    simp only [RateLimitConfig.limits, ModemConfig.defaults, RateLimitConfig.defaults,
      List.forall_mem_cons, hmin, hhour, hday, List.not_mem_nil, false_imp_iff, implies_true]

/-- What an accepted configuration was made of. -/
theorem eq_of_load {h : Host} {path raw : List UInt8} {yaml cfg : GatewayConfig}
    (hread : h.readFile path = .ok raw) (hdecode : h.decode (expandEnv h raw).1 = .ok yaml)
    (hload : load h path = .ok cfg) : cfg = applyEnvOverrides h (defaults yaml) := by
  unfold load at hload
  rw [hread] at hload
  cases hexp : (expandEnv h raw).2 with
  | some e => simp [wrapped, hexp, bind, Except.bind] at hload
  | none =>
    cases hvalid : validate h (applyEnvOverrides h (defaults yaml)) with
    | error e => simp [wrapped, hexp, hdecode, hvalid, bind, Except.bind] at hload
    | ok u =>
      simp [wrapped, hexp, hdecode, hvalid, bind, Except.bind, pure, Except.pure] at hload
      exact hload.symm

/-- For which numbers in its text an accepted configuration is safe. -/
theorem load_safe_iff (p : Platform) {h : Host} {path raw : List UInt8} {yaml cfg : GatewayConfig}
    (hread : h.readFile path = .ok raw) (hdecode : h.decode (expandEnv h raw).1 = .ok yaml)
    (hload : load h path = .ok cfg) : Safe p cfg ↔ InRange p h yaml := by
  obtain rfl := eq_of_load hread hdecode hload
  rw [safe_iff, intervals_ok_iff, limits_ok_iff]
  constructor
  · rintro ⟨⟨hflush, hping, hbeat, hkeep, hsignal⟩, hlimits⟩
    exact ⟨hflush, hping, hbeat, hkeep, hsignal, hlimits⟩
  · intro hr
    exact ⟨⟨hr.flush, hr.ping, hr.heartbeat, hr.keepalive, hr.signal⟩, hr.limits⟩

/-- The text of a configuration with a given interval of the pings and a given limit per minute. -/
def sampleText (ping perMin : Int64) : List UInt8 :=
  lit "gateway:\n  id: gw-1\ntunnel:\n  url: wss://cloud/tunnel\n  token: secret\n" ++
    lit "  ping_interval_s: " ++ Strconv.decimal ping.toInt ++
    lit "\nmodems:\n  - port: /dev/ttyUSB0\n    rate_limit:\n      per_min: " ++
    Strconv.decimal perMin.toInt ++ lit "\n"

/-- What it decodes to. -/
def sampleConfig (ping perMin : Int64) : GatewayConfig where
  gateway := ⟨lit "gw-1", [], []⟩
  tunnel := ⟨lit "wss://cloud/tunnel", lit "secret", ping, 0, 0, 0, 0, 0, 0⟩
  buffer := ⟨[], 0, 0⟩
  modems := [⟨lit "/dev/ttyUSB0", 0, ⟨perMin, 0, 0⟩, []⟩]
  health := ⟨0, 0, 0, 0⟩
  metrics := ⟨[]⟩

/-- A host whose environment is empty, with this text in its only file. -/
def sampleHost (ping perMin : Int64) : Host where
  readFile path :=
    if path = lit "config.yaml" then .ok (sampleText ping perMin)
    else .error (lit "no such file or directory")
  lookupEnv _ := none
  decode s :=
    if s = sampleText ping perMin then .ok (sampleConfig ping perMin)
    else .error (lit "yaml: unmarshal errors")
  lower := id
  quote := id

/-- A platform with 48-bit addresses. -/
def samplePlatform : Platform := ⟨0x1000000000000, by decide⟩

/-- What `Load` makes of the sample. -/
def sampleLoaded (ping perMin : Int64) : GatewayConfig :=
  applyEnvOverrides (sampleHost ping perMin) (defaults (sampleConfig ping perMin))

theorem readFile_sampleHost (ping perMin : Int64) :
    (sampleHost ping perMin).readFile (lit "config.yaml") = .ok (sampleText ping perMin) := by
  simp [sampleHost]

theorem decode_sampleHost (ping perMin : Int64) :
    (sampleHost ping perMin).decode (sampleText ping perMin) = .ok (sampleConfig ping perMin) :=
  if_pos rfl

/-- The validation accepts the sample whatever its numbers are. -/
theorem load_sample {ping perMin : Int64}
    (hexp : expandEnv (sampleHost ping perMin) (sampleText ping perMin) =
      (sampleText ping perMin, none)) :
    load (sampleHost ping perMin) (lit "config.yaml") = .ok (sampleLoaded ping perMin) := by
  unfold load
  rw [readFile_sampleHost]
  simp only [wrapped, bind, Except.bind, hexp, Option.elim, decode_sampleHost]
  rfl

theorem load_safe_iff_sample :
    load (sampleHost 25 5) (lit "config.yaml") = .ok (sampleLoaded 25 5) ∧
      Safe samplePlatform (sampleLoaded 25 5) := by
  have hexp : expandEnv (sampleHost 25 5) (sampleText 25 5) = (sampleText 25 5, none) := by
    decide +kernel
  have hload := load_sample hexp
  have hdecode : (sampleHost 25 5).decode (expandEnv (sampleHost 25 5) (sampleText 25 5)).1 =
      .ok (sampleConfig 25 5) := by
    rw [hexp]
    exact decode_sampleHost 25 5
  refine ⟨hload, (load_safe_iff samplePlatform (readFile_sampleHost 25 5) hdecode hload).mpr ?_⟩
  refine ⟨Or.inl rfl, Or.inr (by decide), Or.inl rfl, Or.inl rfl, ?_, ?_⟩
  · unfold SignalOk
    decide
  · show ∀ limit ∈ ([5, 0, 0] : List Int64), _
    refine List.forall_mem_cons.mpr ⟨Or.inr ⟨by decide, by decide⟩, ?_⟩
    refine List.forall_mem_cons.mpr ⟨Or.inl rfl, ?_⟩
    exact List.forall_mem_cons.mpr ⟨Or.inl rfl, List.forall_mem_nil _⟩

/-- `validate` looks at no number: an accepted configuration can stop the tunnel or the limiter with
a panic. -/
theorem not_load_safe :
    (load (sampleHost (-1) 0) (lit "config.yaml") = .ok (sampleLoaded (-1) 0) ∧
      (newTicker (sampleLoaded (-1) 0).pingInterval : Outcome Empty Unit) = .panic) ∧
    (load (sampleHost 9223372037 0) (lit "config.yaml") =
        .ok (sampleLoaded 9223372037 0) ∧
      (newTicker (sampleLoaded 9223372037 0).pingInterval : Outcome Empty Unit) = .panic) ∧
    (load (sampleHost 0 (-2)) (lit "config.yaml") = .ok (sampleLoaded 0 (-2)) ∧
      -2 ∈ (sampleLoaded 0 (-2)).limits ∧
      (newWindowEvents samplePlatform (-2) : Outcome Empty Unit) = .panic) := by
  refine ⟨⟨load_sample (by decide +kernel), ?_⟩, ⟨load_sample (by decide +kernel), ?_⟩,
    ⟨load_sample (by decide +kernel), ?_, ?_⟩⟩
  · rfl
  · rfl
  · decide
  · rfl

end SmsGate.Config
