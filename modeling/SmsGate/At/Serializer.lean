import SmsGate.At.Commands
import SmsGate.Go.Bufio
import SmsGate.Prog.System

/-!
# The serializer (`internal/at/serializer.go`)

One goroutine reads the port and routes each line; callers of `Execute` and `ExecuteSend` write to
the port and wait for the lines routed to them.  They share `pending`, the channels, the scanner
and the port.

A call is what one goroutine does at a time: an operation on a channel, a section under `cmdMu` or
`writeMu`, a call of `Scan`.  The loops of the source are the blocks of a `System`, so that the
goroutines can be interleaved in every way.
-/

namespace SmsGate.At

open Go Go.Strings Go.Strconv

/-- `urcPrefixes`. -/
def urcPrefixes : List (List UInt8) :=
  [lit "+CMTI:", lit "+RING", lit "+CLIP:", lit "+CUSD:", lit "+CMT:", lit "+CDSI:", lit "+CRING:"]

/-- `isURC`. -/
def isURC (line : Line) : Bool := urcPrefixes.any fun pfx => hasPrefix line pfx

namespace Serializer

/-- The capacity of `URCCH` and of every `linesCh`. -/
def chanCap : ℕ := 64

/-- The limit of the scanner's buffer. -/
def maxToken : ℕ := 256 * 1024

/-- The timers that a caller waits on beside its lines. -/
inductive Timer where
  /-- `promptTimer`. -/
  | prompt
  /-- `timer`. -/
  | timeout
  deriving DecidableEq

/-- What a caller's `select` has chosen. -/
inductive Received where
  | line (l : Line)
  | timer
  | closed

/-- What the goroutines do. -/
inductive Call where
  /-- `sc.Scan()`. -/
  | scan
  /-- `URCCH <- line`, if there is room. -/
  | trySendURC (line : Line)
  /-- `<-URCCH`, if there is a line. -/
  | tryRecvURC
  /-- `pending` is read, to route a line. -/
  | loadPending (line : Line)
  /-- `linesCh <- line` for the pending command `p`, if there is room. -/
  | trySendLine (p : ℕ) (line : Line)
  /-- `close(s.closed)`. -/
  | closeClosed
  /-- Whether `closed` is closed. -/
  | pollClosed
  /-- A new command is made pending. -/
  | install
  /-- `pending = nil`. -/
  | clear
  /-- Whether a write to the port succeeds. -/
  | write (data : List UInt8)
  /-- The `select` on a command's lines, a timer and `closed`. -/
  | recv (timer : Timer) (p : ℕ)
  /-- `s.Close()`. -/
  | close

/-- What a call is answered by. -/
abbrev Call.Ans : Call → Type
  | scan => Option (List UInt8)
  | tryRecvURC => Option Line
  | loadPending _ => Option ℕ
  | trySendURC _ | trySendLine _ _ | pollClosed | write _ => Bool
  | install => ℕ
  | recv _ _ => Received
  | closeClosed | clear | close => Unit

/-- The code of a goroutine. -/
abbrev Io := Prog Call Call.Ans

/-- The program that makes one call. -/
def ask (c : Call) : Io c.Ans := Prog.perform c

/-- Where a goroutine is. -/
inductive Label where
  /-- The loop of `reader`. -/
  | reader
  /-- The start of `Execute`, and its loop with the lines so far. -/
  | execute (cmd : List UInt8)
  | collect (cmd : List UInt8) (p : ℕ) (lines : List Line)
  /-- The start of `ExecuteSend`, its loop up to the prompt and its loop after it. -/
  | executeSend (pduHex : List UInt8) (pduLen : ℕ)
  | awaitPrompt (pduHex : List UInt8) (p : ℕ)
  | awaitResult (p : ℕ) (mr : ℤ)

/-- How a goroutine ends. -/
inductive Exit where
  | reader
  | executed (lines : List Line) (err : Option Err)
  | sent (res : Except Err ℤ)

/-! ### The reader -/

/-- A URC goes to `URCCH`; when it is full, the oldest one is dropped. -/
def routeURC (line : Line) : Io Unit := do
  if ← ask (.trySendURC line) then return
  let _ ← ask .tryRecvURC
  let _ ← ask (.trySendURC line)

/-- Any other line goes to the pending command, if there is one. -/
def routeLine (line : Line) : Io Unit := do
  let pending : Option ℕ ← ask (.loadPending line)
  match pending with
  | some p =>
    let _ ← ask (.trySendLine p line)
  | none => return

/-- One round of `reader`. -/
def reader : Io (Label ⊕ Exit) := do
  let token : Option (List UInt8) ← ask .scan
  match token with
  | some text =>
    let line := trimRight text 0x0D
    if line = [] then return .inl .reader
    if isURC line then routeURC line else routeLine line
    return .inl .reader
  | none =>
    ask .closeClosed
    return .inr .reader

/-! ### Commands -/

/-- A return: the deferred function makes `pending` nil again. -/
def leave (e : Exit) : Io (Label ⊕ Exit) := do
  ask .clear
  return .inr e

/-- The final result codes other than `OK`, as `Execute` matches them. -/
def isFinalError (line : Line) : Bool :=
  line = lit "ERROR" || hasPrefix line (lit "+CME ERROR:") || hasPrefix line (lit "+CMS ERROR:")

/-- `Execute`, up to its loop. -/
def execute (cmd : List UInt8) : Io (Label ⊕ Exit) := do
  if ← ask .pollClosed then return .inr (.executed [] (some .closed))
  let p : ℕ ← ask .install
  if ← ask (.write (cmd ++ lit "\r\n")) then return .inl (.collect cmd p [])
  leave (.executed [] (some .writeCommand))

/-- One round of the loop of `Execute`. -/
def collect (cmd : List UInt8) (p : ℕ) (lines : List Line) : Io (Label ⊕ Exit) := do
  let received : Received ← ask (.recv .timeout p)
  match received with
  | .line l =>
    if l = lit "OK" then leave (.executed lines none)
    else if isFinalError l then leave (.executed lines (some (.atError cmd l)))
    else return .inl (.collect cmd p (lines ++ [l]))
  | .timer =>
    ask .close
    leave (.executed [] (some (.timeout cmd)))
  | .closed => leave (.executed [] (some .closed))

/-- The line that starts a send, `AT+CMGS=<len>`. -/
def cmgs (pduLen : ℕ) : List UInt8 := lit "AT+CMGS=" ++ decimal pduLen ++ lit "\r\n"

/-- The PDU and the Ctrl+Z that ends it. -/
def pduFrame (pduHex : List UInt8) : List UInt8 := pduHex ++ [0x1A]

/-- The prompt, as `ExecuteSend` recognises it. -/
def isPrompt (line : Line) : Bool := hasPrefix line (lit ">")

/-- `ExecuteSend`, up to its first loop. -/
def executeSend (pduHex : List UInt8) (pduLen : ℕ) : Io (Label ⊕ Exit) := do
  if ← ask .pollClosed then return .inr (.sent (.error .closed))
  let p : ℕ ← ask .install
  if ← ask (.write (cmgs pduLen)) then return .inl (.awaitPrompt pduHex p)
  leave (.sent (.error .writeCMGS))

/-- One round of the loop up to the prompt, and the write of the PDU that follows the last one. -/
def awaitPrompt (pduHex : List UInt8) (p : ℕ) : Io (Label ⊕ Exit) := do
  let received : Received ← ask (.recv .prompt p)
  match received with
  | .line l =>
    if isPrompt l then
      if ← ask (.write (pduFrame pduHex)) then return .inl (.awaitResult p 0)
      leave (.sent (.error .writePDU))
    else if l = lit "ERROR" ∨ hasPrefix l (lit "+CME") then leave (.sent (.error (.rejected l)))
    else return .inl (.awaitPrompt pduHex p)
  | .timer =>
    ask .close
    leave (.sent (.error .sendPrompt))
  | .closed => leave (.sent (.error .closed))

/-- One round of the loop after the PDU. -/
def awaitResult (p : ℕ) (mr : ℤ) : Io (Label ⊕ Exit) := do
  let received : Received ← ask (.recv .timeout p)
  match received with
  | .line l =>
    if hasPrefix l (lit "+CMGS:") then
      match scanSpaceInt (trimPrefix l (lit "+CMGS:")) with
      | some v => return .inl (.awaitResult p v)
      | none => leave (.sent (.error (.parseCMGS l)))
    else if l = lit "OK" then leave (.sent (.ok mr))
    else if isFinalError l then leave (.sent (.error (.atError (lit "AT+CMGS") l)))
    else return .inl (.awaitResult p mr)
  | .timer =>
    ask .close
    leave (.sent (.error (.timeout (lit "AT+CMGS"))))
  | .closed => leave (.sent (.error .closed))

/-- The code of a goroutine at a label. -/
def block : Label → Io (Label ⊕ Exit)
  | .reader => reader
  | .execute cmd => execute cmd
  | .collect cmd p lines => collect cmd p lines
  | .executeSend pduHex pduLen => executeSend pduHex pduLen
  | .awaitPrompt pduHex p => awaitPrompt pduHex p
  | .awaitResult p mr => awaitResult p mr

/-! ### What they share -/

/-- The port and the fields of a `Serializer`, with the history of what was done to them. -/
structure World where
  /-- What the modem has sent and the scanner has not read. -/
  incoming : List UInt8
  /-- The port is closed or gone: reading fails. -/
  ended : Bool
  scanner : Bufio.Scanner
  closed : Bool
  pending : Option ℕ
  /-- The `linesCh` of each command. -/
  linesCh : ℕ → List Line
  /-- The number of commands made so far; they are named in order. -/
  made : ℕ
  urcCh : List Line
  /-- The history: everything the modem has sent since the start. -/
  emitted : List UInt8
  /-- The writes that succeeded. -/
  written : List (List UInt8)
  /-- The lines for which `pending` was read. -/
  loaded : List Line
  /-- How many of them there were when a command became pending. -/
  since : ℕ → ℕ
  /-- The lines that were put into each command's `linesCh`. -/
  routed : ℕ → List Line
  /-- A line was dropped because a `linesCh` was full. -/
  overflow : Bool

/-- A serializer with no command pending, where the scanner holds `buf` and `incoming` waits to be
read. -/
def World.idle (buf incoming : List UInt8) : World where
  incoming := incoming
  ended := false
  scanner := { buf := buf, eof := false }
  closed := false
  pending := none
  linesCh _ := []
  made := 0
  urcCh := []
  emitted := []
  written := []
  loaded := []
  since _ := 0
  routed _ := []
  overflow := false

/-- What a call does when it is answered by `a`; `none` if it cannot be answered so. -/
def World.exec (s : World) : (c : Call) → c.Ans → Option World
  | .scan, (token : Option (List UInt8)) =>
    (s.scanner.scan maxToken).bind fun p =>
      if token = p.1 then some { s with scanner := p.2 } else none
  | .trySendURC line, (ok : Bool) =>
    if ok ≠ decide (s.urcCh.length < chanCap) then none
    else if ok then some { s with urcCh := s.urcCh ++ [line] }
    else some s
  | .tryRecvURC, (line : Option Line) =>
    if line = s.urcCh.head? then some { s with urcCh := s.urcCh.tail } else none
  | .loadPending line, (p : Option ℕ) =>
    if p = s.pending then some { s with loaded := s.loaded ++ [line] } else none
  | .trySendLine p line, (ok : Bool) =>
    if ok ≠ decide ((s.linesCh p).length < chanCap) then none
    else if ok then
      some
        { s with
          linesCh := Function.update s.linesCh p (s.linesCh p ++ [line])
          routed := Function.update s.routed p (s.routed p ++ [line]) }
    else some { s with overflow := true }
  | .closeClosed, _ => some { s with closed := true }
  | .pollClosed, (b : Bool) => if b = s.closed then some s else none
  | .install, (p : ℕ) =>
    if p = s.made then
      some
        { s with
          made := s.made + 1
          pending := some p
          since := Function.update s.since p s.loaded.length }
    else none
  | .clear, _ => some { s with pending := none }
  | .write data, (ok : Bool) => some (if ok then { s with written := s.written ++ [data] } else s)
  | .recv _ p, (.line l : Received) =>
    match s.linesCh p with
    | l' :: rest =>
      if l = l' then some { s with linesCh := Function.update s.linesCh p rest } else none
    | [] => none
  | .recv _ _, (.timer : Received) => some s
  | .recv _ _, (.closed : Received) => if s.closed then some s else none
  | .close, _ => some { s with ended := true }

/-- What happens beside the goroutines. -/
inductive Outer where
  /-- The modem sends bytes. -/
  | emit (bytes : List UInt8)
  /-- `Scan`, which waits, reads bytes from the port. -/
  | fill (chunk : List UInt8)
  /-- `Scan`, which waits, finds that the port has ended. -/
  | fillEnd
  /-- The port goes away. -/
  | unplug
  /-- The worker takes a URC. -/
  | takeURC

/-- A step beside the goroutines, with a modem that sends only what it may. -/
def Outer.step (mayEmit : World → List UInt8 → Bool) (s : World) : Outer → Option World
  | .emit bytes =>
    if mayEmit s bytes then
      some { s with incoming := s.incoming ++ bytes, emitted := s.emitted ++ bytes }
    else none
  | .fill chunk =>
    if chunk.isPrefixOf s.incoming then
      (s.scanner.fill maxToken chunk).map fun sc =>
        { s with scanner := sc, incoming := s.incoming.drop chunk.length }
    else none
  | .fillEnd =>
    if s.ended then s.scanner.finish.map fun sc => { s with scanner := sc } else none
  | .unplug => some { s with ended := true }
  | .takeURC => some { s with urcCh := s.urcCh.tail }

/-- The goroutines: the reader and some callers. -/
inductive Thread (κ : Type) where
  | reader
  | caller (k : κ)
  deriving DecidableEq

/-- The goroutines on one serializer, and a modem. -/
def system (κ : Type) (mayEmit : World → List UInt8 → Bool) :
    System (Thread κ) World Call Call.Ans Label Exit Unit Outer where
  block _ l := block l
  exec _ _ s c a := s.exec c a
  env v s := v.step mayEmit s
  crash _ _ := none

/-- Where the goroutines start, given what each caller calls. -/
def entry {κ : Type} (call : κ → Label) : Thread κ → Label
  | .reader => .reader
  | .caller k => call k

end Serializer

end SmsGate.At
