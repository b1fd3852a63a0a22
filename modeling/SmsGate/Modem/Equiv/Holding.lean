import SmsGate.Modem.Equiv.Duty

/-!
# The task in the hands of a worker

`taskProtocol` follows the `AckFn` of a task; `holdingProtocol` follows the task.  A worker takes a
task in the main loop, to execute it, or in the drain.  The next `TASK_ACK` is for this task, and it
tells of a success only if the task was executed.  `Run` keeps to this from its start to its end
(`holdingRun`), as it keeps to the finer `dutyProtocol`.
-/

namespace SmsGate.Modem

open Tunnel

/-- A task that a worker has taken. -/
structure Held where
  task : Task
  /-- It was taken to be executed. -/
  executed : Bool
  deriving DecidableEq

/-- A `TASK_ACK` is for this task. -/
def Held.AckedBy (held : Held) (a : TaskAckEvent) : Prop :=
  a.envelope.messageID = held.task.messageID ∧ (a.status = .success → held.executed = true)

/-- A task is taken with empty hands, and acknowledged before the next one is taken. -/
def holdingProtocol : Protocol Call Call.Ans (Option Held) where
  allows q e :=
    match e with
    | .ack _ a => ∃ held, q = some held ∧ held.AckedBy a
    | .select | .tryRecv => q = none
    | _ => True
  next q e a :=
    match e, a with
    | .ack _ _, _ => none
    | .select, (.task it : Selected) => some ⟨it.task, true⟩
    | .tryRecv, (some it : Option InboundTask) => some ⟨it.task, false⟩
    | _, _ => q

/-- What is left of a worker's progress when the commands are forgotten. -/
def Progress.held (p : Progress) : Held := ⟨p.task, p.executed⟩

section

variable {h : Host} (q : Option Progress) (e : Call)

theorem allows_held (hallow : (dutyProtocol h).allows q e) :
    holdingProtocol.allows (q.map Progress.held) e := by
  cases e with
  | ack n a =>
    obtain ⟨p, rfl, hid, hdone⟩ := hallow
    exact ⟨p.held, rfl, hid, fun hsuccess => (hdone hsuccess).1⟩
  | select | tryRecv =>
    obtain rfl : q = none := hallow
    rfl
  | _ => trivial

theorem next_held (a : e.Ans) : holdingProtocol.next (q.map Progress.held) e a =
    ((dutyProtocol h).next q e a).map Progress.held := by
  cases e with
  | select | tryRecv => cases a <;> rfl
  | execute | executeSend => cases q <;> rfl
  | _ => rfl

end

/-- `Run` keeps to `holdingProtocol`. -/
def holdingRun (h : Host) (w : Worker) : RunProof h w holdingProtocol :=
  (dutyRun h w).view (Option.map Progress.held) allows_held next_held

end SmsGate.Modem
