import SmsGate.Modem.Registry
import SmsGate.Tunnel.Manager

/-!
# The task router (`internal/router/router.go`)

`Dispatch` reads the ICCID from the payload of a task, as the task's action says, and hands the task
to the registry.  Its error, if there is one, is known by its text.

The gateway wires the router to the tunnel (`internal/gateway/gateway.go`): `handleInbound` calls
`Dispatch` for every task, and what the router pushes goes into the outbox.
-/

namespace SmsGate

open Go Tunnel Modem

/-- The router with its registry. -/
structure Router where
  registry : Registry
  /-- The number of tasks for which an `AckFn` was made. -/
  made : ℕ

namespace Router

/-- What the router takes from its host: `encoding/json` for the payloads of all actions. -/
structure Host extends toModem : Modem.Host where
  unmarshalCheckSignal : List UInt8 → Except (List UInt8) CheckSignalPayload
  unmarshalDeleteAllSMS : List UInt8 → Except (List UInt8) DeleteAllSMSPayload

/-- The ICCID of a payload that was parsed, or not. -/
def requireICCID (action : List UInt8) :
    Except (List UInt8) (List UInt8) → Except (List UInt8) (List UInt8)
  | .error text => .error (lit "parse " ++ action ++ lit " payload: " ++ text)
  | .ok iccid => if iccid = [] then .error (lit "payload.iccid is required") else .ok iccid

/-- `extractICCID`. -/
def extractICCID (h : Host) (task : Task) : Except (List UInt8) (List UInt8) :=
  match task.action with
  | .sendSMS =>
    requireICCID (lit "SEND_SMS") ((h.unmarshalSendSMS task.payload).map (·.iccid))
  | .rebootModem =>
    requireICCID (lit "REBOOT_MODEM") ((h.unmarshalRebootModem task.payload).map (·.iccid))
  | .checkSignal =>
    requireICCID (lit "CHECK_SIGNAL") ((h.unmarshalCheckSignal task.payload).map (·.iccid))
  | .deleteAllSMS =>
    requireICCID (lit "DELETE_ALL_SMS") ((h.unmarshalDeleteAllSMS task.payload).map (·.iccid))
  | .other name => .error (lit "unsupported action: " ++ h.texts.quote name)

/-- `Dispatch`: the error, if there is one, and the router after it. -/
def dispatch (r : Router) (h : Host) (task : Task) : Option (List UInt8) × Router :=
  match extractICCID h task with
  | .error text => (some (DispatchError.modemNotFound.text ++ lit ": " ++ text), r)
  | .ok iccid =>
    -- every `Dispatch` makes a closure of its own for `AckFn`, known by its number
    let it : InboundTask := { task, ackFn := r.made }
    let made := r.made + 1
    match r.registry.dispatch iccid it with
    | .ok registry => (none, { registry, made })
    | .error .modemNotFound =>
      (some (ErrCode.modemNotFound.text ++ lit ": " ++ DispatchError.modemNotFound.text),
        { r with made })
    | .error .modemBusy =>
      (some (ErrCode.modemBusy.text ++ lit ": " ++ DispatchError.modemBusy.text), { r with made })

end Router

/-- The tunnel and the router. -/
structure Gateway where
  world : Tunnel.World
  router : Router

/-- What a call of the tunnel does, with `Dispatch` as `InboundTaskFn`. -/
def Gateway.exec (h : Router.Host) (t : Tunnel.Thread) (ms : ℤ) (g : Gateway) :
    (c : Tunnel.Call) → c.Ans → Option Gateway
  | .route task, (err : Option (List UInt8)) =>
    if err = (g.router.dispatch h task).1 then
      some { g with router := (g.router.dispatch h task).2 }
    else none
  | c, a => (g.world.exec t ms c a).map fun world => { g with world }

/-! ### For runs on fixed inputs -/

namespace Router

/-- The JSON of a payload that has an ICCID only. -/
def jsonICCID (iccid : List UInt8) : List UInt8 :=
  lit "\x7b\"iccid\":\"" ++ iccid ++ lit "\"\x7d"

/-- `json.Unmarshal` where this payload is the only one known. -/
def parseICCID (iccid json : List UInt8) : Except (List UInt8) (List UInt8) :=
  if json = jsonICCID iccid then .ok iccid else .error (lit "invalid character")

/-- A host that knows the payloads of one SIM. -/
def Host.ofSIM (iccid : List UInt8) : Host where
  toModem := .plain
  unmarshalCheckSignal json := (parseICCID iccid json).map (⟨·⟩)
  unmarshalDeleteAllSMS json := (parseICCID iccid json).map (⟨·⟩)

end Router

end SmsGate
