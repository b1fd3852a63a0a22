import SmsGate.Go.Strconv

/-!
# AT commands (`internal/at/serializer.go`, `internal/at/csq.go`)

The wrappers around `Execute`: which command each of them sends, and what it makes of the lines it
gets back.  They run in any monad that offers `execute`, so that one text serves a modem that
answers by a table, a worker that talks to others between two commands, and the line protocol
itself.
-/

namespace SmsGate.At

open Go Go.Strings Go.Strconv

/-- A response line, without its line end. -/
abbrev Line := List UInt8

/-- The commands sent through `Execute`. -/
inductive Cmd where
  | ping
  | disableEcho
  | setPDUMode
  | enableCMTIURCs
  | readCapabilities
  | ccid
  | iccid
  | qccid
  | readIMSI
  | readOperator
  | signalQuality
  | registrationStatus
  | storageStatus
  | readSMS (index : ℤ)
  | deleteSMS (index : ℤ)
  | deleteAllSMS
  | radioOff
  | radioOn
  | hardReset
  deriving DecidableEq

/-- The text that `Execute` writes, without the line end. -/
def Cmd.text : Cmd → List UInt8
  | ping => lit "AT"
  | disableEcho => lit "ATE0"
  | setPDUMode => lit "AT+CMGF=0"
  | enableCMTIURCs => lit "AT+CNMI=2,1,0,0,0"
  | readCapabilities => lit "AT+GCAP"
  | ccid => lit "AT+CCID?"
  | iccid => lit "AT+ICCID?"
  | qccid => lit "AT+QCCID"
  | readIMSI => lit "AT+CIMI"
  | readOperator => lit "AT+COPS?"
  | signalQuality => lit "AT+CSQ"
  | registrationStatus => lit "AT+CREG?"
  | storageStatus => lit "AT+CPMS?"
  | readSMS index => lit "AT+CMGR=" ++ decimal index
  | deleteSMS index => lit "AT+CMGD=" ++ decimal index
  | deleteAllSMS => lit "AT+CMGD=1,4"
  | radioOff => lit "AT+CFUN=0"
  | radioOn => lit "AT+CFUN=1"
  | hardReset => lit "AT+CFUN=1,1"

/-- The errors of the serializer and of the wrappers. -/
inductive Err where
  /-- `ErrClosed`. -/
  | closed
  /-- `ErrTimeout` in an `ATError`. -/
  | timeout (cmd : List UInt8)
  /-- `ErrATError` in an `ATError`, with the final result line. -/
  | atError (cmd raw : List UInt8)
  /-- Writing to the port failed. -/
  | writeCommand
  | writeCMGS
  | writePDU
  /-- `ErrSendPrompt`. -/
  | sendPrompt
  | rejected (line : Line)
  | parseCMGS (line : Line)
  /-- `ErrMalformedResponse`, with the text in front of it. -/
  | malformed (what : List UInt8)
  | malformedCMTI (urc : Line)
  | parseCMTI
  | csqPrefix (line : Line)
  | csqValue (line : Line)
  | csqRange (csq : ℤ)
  | parseCREG (line : Line)
  | parseCPMSUsed (line : Line)
  | parseCPMSTotal (line : Line)
  deriving DecidableEq

/-- The two texts that the libraries contribute to an error message. -/
structure Texts where
  /-- `strconv.Quote`, the verb `%q`. -/
  quote : List UInt8 → List UInt8
  /-- The library's error that an error wraps. -/
  cause : Err → List UInt8

/-- `Error()`. -/
def Err.message (x : Texts) (e : Err) : List UInt8 :=
  match e with
  | closed => lit "serializer closed"
  | timeout cmd => cmd ++ lit ": AT command timed out"
  | atError cmd raw => cmd ++ lit ": AT ERROR (" ++ raw ++ lit ")"
  | writeCommand => lit "write AT command: " ++ x.cause e
  | writeCMGS => lit "write CMGS command: " ++ x.cause e
  | writePDU => lit "write PDU: " ++ x.cause e
  | sendPrompt => lit "did not receive send prompt '>'"
  | rejected line => lit "CMGS rejected before prompt: " ++ line
  | parseCMGS line => lit "parse CMGS response " ++ x.quote line ++ lit ": " ++ x.cause e
  | malformed what => what ++ lit ": AT malformed response"
  | malformedCMTI urc => lit "malformed CMTI: " ++ x.quote urc ++ lit ": AT malformed response"
  | parseCMTI => lit "parse CMTI index: " ++ x.cause e
  | csqPrefix line =>
    lit "at: ParseCSQ: expected line starting with \"+CSQ:\", got " ++ x.quote line
  | csqValue line =>
    lit "at: ParseCSQ: cannot parse CSQ value from " ++ x.quote line ++ lit ": " ++ x.cause e
  | csqRange csq =>
    lit "at: ParseCSQ: CSQ value " ++ decimal csq ++ lit " out of range [0,31] or 99"
  | parseCREG line => lit "parse +CREG response " ++ x.quote line ++ lit ": " ++ x.cause e
  | parseCPMSUsed line => lit "parse +CPMS used count " ++ x.quote line ++ lit ": " ++ x.cause e
  | parseCPMSTotal line => lit "parse +CPMS total count " ++ x.quote line ++ lit ": " ++ x.cause e

/-! ### What the wrappers make of the lines -/

/-- `ReadCapabilities` on its lines. -/
def capabilitiesOf (lines : List Line) : Except Err (List UInt8) :=
  match lines.find? fun l => hasPrefix l (lit "+GCAP:") with
  | some l => .ok (trimSpace (trimPrefix l (lit "+GCAP:")))
  | none => .error (.malformed (lit "no +GCAP in response"))

/-- A line of an ICCID response without its prefixes and the blanks around it. -/
def cleanICCID (l : Line) : List UInt8 :=
  trimSpace (trimPrefix (trimPrefix (trimSpace l) (lit "+CCID:")) (lit "+ICCID:"))

/-- The ICCID on a line: the length is checked before the blanks inside are taken out. -/
def iccidOf (t : CaseTable) (l : Line) : Option (List UInt8) :=
  let l := cleanICCID l
  if 19 ≤ l.length then some (toUpper t (removeAll l 0x20)) else none

/-- `ReadIMSI` on its lines. -/
def imsiOf (lines : List Line) : Except Err (List UInt8) :=
  match (lines.map trimSpace).find? fun l => l.length = 15 with
  | some l => .ok l
  | none => .error (.malformed (lit "could not read IMSI"))

/-- `ReadOperator` on its lines: the text between the first quotes of a `+COPS:` line. -/
def operatorOf (lines : List Line) : List UInt8 :=
  (lines.findSome? fun l =>
    if hasPrefix l (lit "+COPS:") then (split l 0x22)[1]? else none).getD (lit "unknown")

/-- `ParseCSQ`: the signal strength in dBm. -/
def parseCSQ (line : Line) : Except Err ℤ :=
  let line := trimSpace line
  if ¬ hasPrefix line (lit "+CSQ:") then
    .error (.csqPrefix line)
  else
    match scanIntPair (trimSpace (trimPrefix line (lit "+CSQ:"))) with
    | none => .error (.csqValue line)
    | some (csq, _) =>
      if csq < 0 ∨ 31 < csq ∧ csq ≠ 99 then .error (.csqRange csq)
      else if csq = 99 then .ok (-113)
      else .ok (-113 + csq * 2)

/-- `SignalQuality` on its lines. -/
def signalOf (lines : List Line) : Except Err ℤ :=
  match lines.find? fun l => hasPrefix l (lit "+CSQ:") with
  | some l => parseCSQ l
  | none => .error (.malformed (lit "no +CSQ in response"))

/-- `RegistrationStatus` on its lines: the second field of the first `+CREG:` line, or its only
one. -/
def registrationOf (lines : List Line) : Except Err ℤ :=
  match lines.find? fun l => hasPrefix l (lit "+CREG:") with
  | some l =>
    let body := trimPrefix l (lit "+CREG:")
    match atoi (trimSpace ((split body 0x2C)[1]?.getD body)) with
    | some stat => .ok stat
    | none => .error (.parseCREG l)
  | none => .error (.malformed (lit "no +CREG in response"))

/-- `StorageStatus` on its lines: used and total.  A `+CPMS:` line with fewer than three fields is
passed over. -/
def storageOf : List Line → Except Err (ℤ × ℤ)
  | [] => .error (.malformed (lit "could not parse +CPMS response"))
  | l :: lines =>
    if hasPrefix l (lit "+CPMS:") then
      let l := trimPrefix l (lit "+CPMS:")
      match split l 0x2C with
      | _ :: used :: total :: _ =>
        match atoi (trimSpace used), atoi (trimSpace total) with
        | none, _ => .error (.parseCPMSUsed l)
        | some _, none => .error (.parseCPMSTotal l)
        | some used, some total => .ok (used, total)
      | _ => storageOf lines
    else storageOf lines

/-- `ReadSMS` on its lines: everything behind the `+CMGR:` header, each line without the blanks
around it. -/
def pduOf (index : ℤ) (lines : List Line) : Except Err (List UInt8) :=
  if lines = [] then .error (.malformed (lit "empty storage slot " ++ decimal index))
  else
    match lines.dropWhile fun l => !hasPrefix l (lit "+CMGR:") with
    | [] => .error (.malformed (lit "no +CMGR header in response"))
    | [_] => .error (.malformed (lit "no PDU after +CMGR header"))
    | _ :: parts =>
      let hex := parts.flatMap trimSpace
      if hex = [] then .error (.malformed (lit "empty PDU in CMGR response")) else .ok hex

/-- `ParseCMTI`: the index of a new message. -/
def parseCMTI (urc : Line) : Except Err ℤ :=
  match (split urc 0x2C)[1]? with
  | none => .error (.malformedCMTI urc)
  | some field =>
    match scanInt (trimSpace field) with
    | none => .error .parseCMTI
    | some (idx, _) =>
      if idx < 0 ∨ 999 < idx then
        .error (.malformed (lit "CMTI index " ++ decimal idx ++ lit " out of range [0,999]"))
      else .ok idx

/-- `ParseCREG`: the registration status of a URC, 0 if it does not parse. -/
def parseCREG (urc : Line) : ℤ :=
  let parts := split (trimSpace (trimPrefix urc (lit "+CREG:"))) 0x2C
  let statStr := trimSpace (parts[1]?.getD (parts.headD []))
  (atoi statStr).getD 0

/-! ### The wrappers -/

section Wrappers

variable {m : Type → Type} [Monad m] (execute : Cmd → m (Except Err (List Line)))

/-- A command of which only the outcome matters: `Ping`, `SetPDUMode`, `DeleteSMS` and so on. -/
def outcome (c : Cmd) : m (Except Err Unit) := do
  let res ← execute c
  return res.map fun _ => ()

/-- A command whose lines are read by `parse`. -/
def query {α : Type} (c : Cmd) (parse : List Line → Except Err α) : m (Except Err α) := do
  let res ← execute c
  return res.bind parse

/-- `ReadICCID` from a list of commands on: the first line that is long enough, of the first
command that has one. -/
def readICCIDFrom (t : CaseTable) : List Cmd → m (Except Err (List UInt8))
  | [] => return .error (.malformed (lit "could not read ICCID"))
  | c :: cs => do
    match ← execute c with
    | .error _ => readICCIDFrom t cs
    | .ok lines =>
      match lines.findSome? (iccidOf t) with
      | some s => return .ok s
      | none => readICCIDFrom t cs

/-- `ReadICCID`. -/
def readICCID (t : CaseTable) : m (Except Err (List UInt8)) :=
  readICCIDFrom execute t [.ccid, .iccid, .qccid]

/-- `SignalQuality`. -/
def signalQuality : m (Except Err ℤ) := query execute .signalQuality signalOf

/-- `RegistrationStatus`. -/
def registrationStatus : m (Except Err ℤ) := query execute .registrationStatus registrationOf

/-- `StorageStatus`. -/
def storageStatus : m (Except Err (ℤ × ℤ)) := query execute .storageStatus storageOf

/-- `ReadSMS`. -/
def readSMS (index : ℤ) : m (Except Err (List UInt8)) :=
  query execute (.readSMS index) (pduOf index)

end Wrappers

end SmsGate.At
