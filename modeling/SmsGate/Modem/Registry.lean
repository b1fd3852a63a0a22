import SmsGate.Modem.Worker
import Mathlib.Logic.Function.Basic

/-!
# The registry of workers (`internal/modem/registry.go`)

The registry maps ICCIDs to workers.  A worker is known here by its number, which stands for its
address, and of a worker only its `inboundCh` matters.  What is left out are the methods that report
on the workers.
-/

namespace SmsGate.Modem

open Go

/-- The map of the registry: the worker that is registered under an ICCID. -/
abbrev Workers := List UInt8 → Option ℕ

namespace Workers

/-- `NewRegistry`. -/
def new : Workers := fun _ => none

/-- `Register`. -/
def register (m : Workers) (iccid : List UInt8) (w : ℕ) : Workers :=
  Function.update m iccid (some w)

/-- `Deregister`. -/
def deregister (m : Workers) (iccid : List UInt8) : Workers := Function.update m iccid none

/-- `Lookup`. -/
def lookup (m : Workers) (iccid : List UInt8) : Option ℕ := m iccid

end Workers

/-- The `inboundCh` of a worker. -/
structure TaskQueue where
  capacity : ℕ
  tasks : List InboundTask
  fits : tasks.length ≤ capacity

/-- The `select` that sends a task, or finds the channel full. -/
def TaskQueue.trySend (q : TaskQueue) (it : InboundTask) : Option TaskQueue :=
  if h : q.tasks.length < q.capacity then
    some
      { q with
        tasks := q.tasks ++ [it]
        fits := by
          rw [List.length_append]
          exact h }
  else none

/-- `Registry`, with the channels of the workers. -/
structure Registry where
  /-- The worker that is registered under an ICCID. -/
  workers : List UInt8 → Option ℕ
  queue : ℕ → TaskQueue

/-- The errors of `Registry.Dispatch`. -/
inductive DispatchError where
  | modemNotFound
  | modemBusy
  deriving DecidableEq

def DispatchError.text : DispatchError → List UInt8
  | modemNotFound => lit "modem not found: ICCID not in registry"
  | modemBusy => lit "modem busy: task queue full"

/-- `Dispatch`. -/
def Registry.dispatch (r : Registry) (iccid : List UInt8) (it : InboundTask) :
    Except DispatchError Registry :=
  match r.workers iccid with
  | none => .error .modemNotFound
  | some w =>
    match (r.queue w).trySend it with
    | some q => .ok { r with queue := Function.update r.queue w q }
    | none => .error .modemBusy

theorem TaskQueue.tasks_of_trySend {q q' : TaskQueue} {it : InboundTask}
    (h : q.trySend it = some q') : q'.tasks = q.tasks ++ [it] := by
  unfold trySend at h
  split_ifs at h
  cases h
  rfl

end SmsGate.Modem
