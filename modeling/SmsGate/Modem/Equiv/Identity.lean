import SmsGate.Modem.Equiv.Receipt

/-!
# The ICCID of a worker

A worker registers once, under the ICCID that the init sequence has read from its SIM, and this is
the ICCID of all that it inserts and of its deregistration.
-/

namespace SmsGate.Modem

open Tunnel

/-- The worker registers once, and from then on it is known by the ICCID. -/
def identityProtocol : Protocol Call Call.Ans (Option (List UInt8)) where
  allows q e :=
    match e with
    | .register _ => q = none
    | .deregister iccid => q = some iccid
    | .insert m => q = some m.iccid
    | _ => True
  next q e a :=
    match e, a with
    | .register iccid, _ => some iccid
    | _, _ => q

/-- The calls that tell nothing about the ICCID. -/
def Call.anonymous : Call → Bool
  | .register _ | .deregister _ | .insert _ => false
  | _ => true

theorem identityProtocol_anonymous {q : Option (List UInt8)} (e : Call) (he : e.anonymous = true) :
    identityProtocol.allows q e ∧ ∀ a, identityProtocol.next q e a = q := by
  cases e with
  | register | deregister | insert => cases he
  | _ => exact ⟨trivial, fun _ => rfl⟩

theorem anonymous_ask {e : Call} (he : e.anonymous = true) :
    (ask e).Calls fun e => e.anonymous = true := calls_ask he

theorem anonymous_of_minor (e : Call) (he : e.minor = true) : e.anonymous = true := by
  cases e with
  | register | deregister | insert => cases he
  | _ => rfl

/-- What a handler inserts has the ICCID of the worker. -/
theorem handle_obeys_identity (h : Host) (w : Worker) (id : Identity) (selected : Selected) :
    (handle h w id selected).Obeys identityProtocol (some id.iccid)
      fun _ q => q = some id.iccid := by
  refine (calls_handle h w id selected).obeys (fun e he => ?_) fun _ => rfl
  cases e with
  | register | deregister => cases he.ofRun
  | insert m => exact ⟨congrArg some (he.inserts m rfl).symm, fun _ => rfl⟩
  | _ => exact ⟨trivial, fun _ => rfl⟩

/-! ### `Run` -/

/-- What is known where a block of `Run` starts. -/
def identityHead : Label → Option (List UInt8) → Prop
  | .init, q => q = none
  | .main id, q => q = some id.iccid
  | .drain, _ => True
  | .watchdog, _ => False

/-- Blocks of `Run` follow each other. -/
abbrev IdentityEnds : Label ⊕ Exit → Option (List UInt8) → Prop :=
  RunEnds identityHead fun _ _ => True

theorem init_obeys_identity (h : Host) (w : Worker) :
    (init h w).Obeys identityProtocol none IdentityEnds := by
  have hbind : ∀ {α : Type} {e : Call} {f : e.Ans → Work α} {q : Option (List UInt8)}
      {Φ : α → Option (List UInt8) → Prop}, e.anonymous = true →
      (∀ a, (f a).Obeys identityProtocol q Φ) → (ask e >>= f).Obeys identityProtocol q Φ :=
    fun he hf => Prog.Calls.bind_obeys (anonymous_ask he) identityProtocol_anonymous hf
  refine hbind rfl fun (opened : Bool) => ?_
  cases opened with
  | false => exact hbind rfl fun _ => trivial
  | true =>
    have hsequence : (runInitSequence execute (fun ms => ask (.sleep ms)) h.caseTable
        w.expectedICCID).Calls fun e => e.anonymous = true :=
      calls_runInitSequence anonymous_of_minor _ _ rfl rfl
    refine Prog.Calls.bind_obeys hsequence identityProtocol_anonymous fun res => ?_
    cases res with
    | error e => exact hbind rfl fun _ => trivial
    | ok id =>
      refine Prog.perform_bind_obeys rfl fun _ => hbind rfl fun _ => hbind rfl fun _ => ?_
      exact hbind rfl fun _ => hbind rfl fun _ => hbind rfl fun _ => hbind rfl fun _ => rfl

/-- `Run` keeps to `identityProtocol`. -/
def identityRun (h : Host) (w : Worker) : RunProof h w identityProtocol where
  head := identityHead
  final _ _ := True
  not_watchdog _ hq := hq
  init_obeys q hq := by
    obtain rfl : q = none := hq
    exact init_obeys_identity h w
  main_obeys id q hq := by
    obtain rfl : q = some id.iccid := hq
    refine mainLoop_obeys_of_keeps h w id (I := (· = some id.iccid)) trivial ⟨rfl, trivial⟩
      (handle_obeys_identity h w id) (fun q e hq he => ?_) (fun _ hq => hq) fun _ _ _ => trivial
    cases e with
    | deregister iccid => exact ⟨hq.trans (congrArg some (of_decide_eq_true he).symm), fun _ => hq⟩
    | now | storeLastLoop | loadState | closeWatchdog => exact ⟨trivial, fun _ => hq⟩
    | _ => cases he
  drain_obeys q _ := by
    refine drainInboundCh_obeys_of_keeps (I := fun _ => True) (fun q e _ he => ?_) trivial
      (fun _ _ => trivial) fun _ _ => trivial
    cases e with
    | register | deregister | insert => cases he
    | _ => exact ⟨trivial, fun _ => trivial⟩

end SmsGate.Modem
