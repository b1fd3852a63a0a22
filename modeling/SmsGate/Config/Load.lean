import SmsGate.Go.Strconv

/-!
# The configuration (`internal/config/config.go`)

`Load` reads a file, replaces the tokens `${NAME}` by environment variables, parses the result as
YAML, fills in defaults, lets environment variables override some fields, and validates.

The operating system and the YAML parser are the parameter `Host`.  An `int` is an `Int64`.
-/

namespace SmsGate.Config

open Go Go.Strings Go.Strconv

/-! ### The configuration -/

/-- `GatewaySection`. -/
structure GatewaySection where
  id : List UInt8
  logLevel : List UInt8
  logFormat : List UInt8
  deriving DecidableEq

/-- `TunnelSection`. -/
structure TunnelSection where
  url : List UInt8
  token : List UInt8
  pingIntervalS : Int64
  pingTimeoutS : Int64
  heartbeatIntervalS : Int64
  ackTimeoutS : Int64
  reconnectBaseS : Int64
  reconnectMaxS : Int64
  handshakeTimeoutS : Int64
  deriving DecidableEq

/-- `BufferSection`. -/
structure BufferSection where
  dbPath : List UInt8
  retentionDays : Int64
  flushIntervalM : Int64
  deriving DecidableEq

/-- `RateLimitConfig`. -/
structure RateLimitConfig where
  perMin : Int64
  perHour : Int64
  perDay : Int64
  deriving DecidableEq

/-- `ModemConfig`. -/
structure ModemConfig where
  port : List UInt8
  baud : Int64
  rateLimit : RateLimitConfig
  expectedICCID : List UInt8
  deriving DecidableEq

/-- `HealthSection`. -/
structure HealthSection where
  keepaliveIntervalS : Int64
  simCapacityWarnPct : Int64
  simCapacityPurgePct : Int64
  signalPollIntervalS : Int64
  deriving DecidableEq

/-- `MetricsSection`. -/
structure MetricsSection where
  addr : List UInt8
  deriving DecidableEq

/-- `GatewayConfig`. -/
structure GatewayConfig where
  gateway : GatewaySection
  tunnel : TunnelSection
  buffer : BufferSection
  modems : List ModemConfig
  health : HealthSection
  metrics : MetricsSection
  deriving DecidableEq

/-- What `Load` needs from outside; errors are their texts. -/
structure Host where
  /-- `os.ReadFile`. -/
  readFile : List UInt8 → Except (List UInt8) (List UInt8)
  /-- `os.LookupEnv`. -/
  lookupEnv : List UInt8 → Option (List UInt8)
  /-- `Decode` of a YAML text into an empty configuration. -/
  decode : List UInt8 → Except (List UInt8) GatewayConfig
  /-- `unicode.ToLower`. -/
  lower : Char → Char
  /-- The verb `%q`. -/
  quote : List UInt8 → List UInt8

/-! ### Defaults -/

/-- A number, or what stands for zero. -/
def orInt (v d : Int64) : Int64 := if v = 0 then d else v

/-- A text, or what stands for the empty one. -/
def orText (v d : List UInt8) : List UInt8 := if v = [] then d else v

/-- The defaults of the rate limits. -/
def RateLimitConfig.defaults (r : RateLimitConfig) : RateLimitConfig where
  perMin := orInt r.perMin 3
  perHour := orInt r.perHour 30
  perDay := orInt r.perDay 200

/-- The defaults of a modem. -/
def ModemConfig.defaults (m : ModemConfig) : ModemConfig :=
  { m with baud := orInt m.baud 115200, rateLimit := m.rateLimit.defaults }

/-- `defaults`. -/
def defaults (cfg : GatewayConfig) : GatewayConfig where
  gateway :=
    { cfg.gateway with
      logLevel := orText cfg.gateway.logLevel (lit "info")
      logFormat := orText cfg.gateway.logFormat (lit "text") }
  tunnel :=
    { cfg.tunnel with
      pingIntervalS := orInt cfg.tunnel.pingIntervalS 30
      pingTimeoutS := orInt cfg.tunnel.pingTimeoutS 10
      heartbeatIntervalS := orInt cfg.tunnel.heartbeatIntervalS 60
      ackTimeoutS := orInt cfg.tunnel.ackTimeoutS 10
      reconnectBaseS := orInt cfg.tunnel.reconnectBaseS 1
      reconnectMaxS := orInt cfg.tunnel.reconnectMaxS 300
      handshakeTimeoutS := orInt cfg.tunnel.handshakeTimeoutS 15 }
  buffer :=
    { dbPath := orText cfg.buffer.dbPath (lit "./sms.db")
      retentionDays := orInt cfg.buffer.retentionDays 7
      flushIntervalM := orInt cfg.buffer.flushIntervalM 10 }
  modems := cfg.modems.map ModemConfig.defaults
  health :=
    { keepaliveIntervalS := orInt cfg.health.keepaliveIntervalS 60
      simCapacityWarnPct := orInt cfg.health.simCapacityWarnPct 80
      simCapacityPurgePct := orInt cfg.health.simCapacityPurgePct 95
      signalPollIntervalS := orInt cfg.health.signalPollIntervalS 30 }
  metrics := { addr := orText cfg.metrics.addr (lit ":9200") }

/-! ### Environment variables -/

/-- The characters of a name, `[A-Z0-9_]`. -/
def isNameByte (b : UInt8) : Bool := (0x41 ≤ b && b ≤ 0x5A) || isDigit b || b == 0x5F

/-- `envVarRe` at the start of a text: the name of the token and what follows it.  No character of a
name is the closing brace, so the name is the longest run of its characters. -/
def envVar : List UInt8 → Option (List UInt8 × List UInt8)
  | 0x24 :: 0x7B :: s =>
    match s.dropWhile isNameByte with
    | 0x7D :: rest =>
      if s.takeWhile isNameByte = [] then none else some (s.takeWhile isNameByte, rest)
    | _ => none
  | _ => none

/-- `expandEnv`: the text, and the last variable that is not set.  The fuel is the length of the
text, of which each step uses up at least one byte. -/
def expandFrom (h : Host) : ℕ → List UInt8 → List UInt8 × Option (List UInt8)
  | 0, s => (s, none)
  | _ + 1, [] => ([], none)
  | n + 1, b :: s =>
    match envVar (b :: s) with
    | some (name, rest) =>
      let p := expandFrom h n rest
      match h.lookupEnv name with
      | some val => (val ++ p.1, p.2)
      | none =>
        -- the token stays, and an error further on replaces this one
        ([0x24, 0x7B] ++ name ++ [0x7D] ++ p.1, p.2.or (some name))
    | none =>
      let p := expandFrom h n s
      (b :: p.1, p.2)

/-- `expandEnv`. -/
def expandEnv (h : Host) (s : List UInt8) : List UInt8 × Option (List UInt8) :=
  let p := expandFrom h s.length s
  (p.1, p.2.map fun name =>
    lit "environment variable " ++ h.quote name ++ lit " is not set")

/-- `os.Getenv`. -/
def Host.getenv (h : Host) (name : List UInt8) : List UInt8 := (h.lookupEnv name).getD []

/-- A text that the environment overrides. -/
def Host.override (h : Host) (name : List UInt8) (v : List UInt8) : List UInt8 :=
  orText (h.getenv name) v

/-- `SIGNAL_POLL_INTERVAL`: a positive number overrides the interval. -/
def Host.signalPollInterval (h : Host) (v : Int64) : Int64 :=
  match atoi (h.getenv (lit "SIGNAL_POLL_INTERVAL")) with
  | some s => if 0 < s then .ofInt s else v
  | none => v

/-- `applyEnvOverrides`. -/
def applyEnvOverrides (h : Host) (cfg : GatewayConfig) : GatewayConfig :=
  { cfg with
    gateway :=
      { id := h.override (lit "GATEWAY_ID") cfg.gateway.id
        logLevel := h.override (lit "LOG_LEVEL") cfg.gateway.logLevel
        logFormat := h.override (lit "LOG_FORMAT") cfg.gateway.logFormat }
    tunnel :=
      { cfg.tunnel with
        url := h.override (lit "TUNNEL_URL") cfg.tunnel.url
        token := h.override (lit "TUNNEL_TOKEN") cfg.tunnel.token }
    metrics := { addr := h.override (lit "METRICS_ADDR") cfg.metrics.addr }
    health :=
      { cfg.health with
        signalPollIntervalS := h.signalPollInterval cfg.health.signalPollIntervalS } }

/-! ### Validation -/

/-- `if c { return err }`. -/
def rejectIf (c : Prop) [Decidable c] (text : List UInt8) : Except (List UInt8) Unit :=
  if c then .error text else .ok ()

/-- The check of one modem, and of those behind it. -/
def validateModems (h : Host) (i : ℕ) : List ModemConfig → Except (List UInt8) Unit
  | [] => .ok ()
  | m :: ms => do
    let field := lit "modems[" ++ decimal i ++ lit "].port"
    rejectIf (m.port = []) (field ++ lit " must not be empty")
    rejectIf (¬ hasPrefix m.port (lit "/dev/") ∧ ¬ hasPrefix m.port (lit "/tmp/"))
      (field ++ lit " " ++ h.quote m.port ++ lit " must start with /dev/ or /tmp/")
    validateModems h (i + 1) ms

/-- `validate`. -/
def validate (h : Host) (cfg : GatewayConfig) : Except (List UInt8) Unit := do
  rejectIf (cfg.gateway.id = []) (lit "gateway.id must not be empty")
  rejectIf (toLower h.lower cfg.gateway.logLevel ∉
      [lit "debug", lit "info", lit "warn", lit "error"])
    (lit "gateway.log_level " ++ h.quote cfg.gateway.logLevel ++
      lit " is invalid; must be debug, info, warn, or error")
  rejectIf (cfg.tunnel.url = []) (lit "tunnel.url must not be empty")
  rejectIf (¬ hasPrefix cfg.tunnel.url (lit "ws://") ∧ ¬ hasPrefix cfg.tunnel.url (lit "wss://"))
    (lit "tunnel.url must start with ws:// or wss://, got " ++ h.quote cfg.tunnel.url)
  rejectIf (cfg.tunnel.token = []) (lit "tunnel.token must not be empty")
  rejectIf (cfg.modems = []) (lit "at least one modem must be configured")
  validateModems h 0 cfg.modems

/-! ### Loading -/

/-- `fmt.Errorf("what: %w", err)`. -/
def wrapped {α : Type} (what : List UInt8) : Except (List UInt8) α → Except (List UInt8) α
  | .ok a => .ok a
  | .error e => .error (what ++ lit ": " ++ e)

/-- `Load`. -/
def load (h : Host) (path : List UInt8) : Except (List UInt8) GatewayConfig := do
  let raw ← wrapped (lit "read config") (h.readFile path)
  let expanded := expandEnv h raw
  wrapped (lit "config env expansion") (expanded.2.elim (.ok ()) .error)
  let cfg ← wrapped (lit "parse config") (h.decode expanded.1)
  let cfg := applyEnvOverrides h (defaults cfg)
  wrapped (lit "invalid config") (validate h cfg)
  return cfg

end SmsGate.Config
