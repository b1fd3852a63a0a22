import SmsGate.Modem.Equiv.Supervised

/-!
# What a worker does with messages

`receiptProtocol` follows an attempt to receive a message, and it follows the message itself: what
is inserted was read and decoded, and the event that is pushed at the end carries what was inserted,
under the id that the insert has returned.

Only the handler of a URC reads, inserts or deletes single messages (`Call.receives`), so `Run`
keeps to the protocol from its start to its end (`receiptRun`).
-/

namespace SmsGate.Tunnel

/-- The message that an event is about, as it is in the buffer. -/
def SMSReceivedEvent.message (e : SMSReceivedEvent) : Buffer.Message where
  iccid := e.iccid
  sender := e.sender
  body := e.body
  pduHash := e.pduHash
  smsc := e.smsc
  receivedAt := e.receivedAt

end SmsGate.Tunnel

namespace SmsGate.At

/-- A message that was decoded, as it is buffered for a SIM. -/
def DecodedSMS.message (d : DecodedSMS) (iccid : List UInt8) : Buffer.Message where
  iccid := iccid
  sender := d.sender
  body := d.body
  pduHash := d.pduHash
  smsc := d.smsc
  receivedAt := d.timestamp.unixMilli

end SmsGate.At

namespace SmsGate.Modem

open Go Go.Strings Tunnel

/-! ### What is done with a message, in which order -/

/-- How far the receipt of a message is. -/
inductive Receipt where
  | idle
  /-- The PDU in the slot has been read. -/
  | read (slot : ℤ) (pdu : List UInt8)
  /-- The message has been inserted, and is to be deleted. -/
  | stored (slot : ℤ) (pdu : List UInt8) (m : Buffer.Message) (bufferID : ℤ) (dup : Bool)
  /-- `DeleteSMS` has been called. -/
  | deleted (m : Buffer.Message) (bufferID : ℤ) (dup : Bool)

/-- What is known once a slot has been read. -/
def Receipt.ofRead (slot : ℤ) : Except At.Err (List UInt8) → Receipt
  | .ok pdu => .read slot pdu
  | .error _ => .idle

section

variable (h : Host) (w : Worker)

/-- A message is deleted if it was read and does not decode, or was read and inserted; an event is
pushed for a message that was not there before, with what was inserted and the id of its row. -/
def receiptProtocol : Protocol Call Call.Ans Receipt where
  allows q e :=
    match e with
    | .execute (.deleteSMS i) =>
      (∃ pdu err, q = .read i pdu ∧ At.decodePDU h.toHost pdu = .err err) ∨
        ∃ pdu m bufferID dup, q = .stored i pdu m bufferID dup
    | .insert m =>
      ∃ i pdu d, q = .read i pdu ∧ At.decodePDU h.toHost pdu = .ok d ∧ m = d.message m.iccid
    | .event (.smsReceived e) =>
      q = .deleted e.message e.bufferID false ∧ e.gatewayID = w.gatewayID
    | _ => True
  next q e a :=
    match e, a with
    | .select, _ => .idle
    | .execute (.readSMS i), (res : Except At.Err (List At.Line)) =>
      .ofRead i (res.bind (At.pduOf i))
    | .execute (.deleteSMS _), _ =>
      match q with
      | .stored _ _ m bufferID dup => .deleted m bufferID dup
      | _ => .idle
    | .insert m, (res : Except Buffer.InsertErr (ℤ × Bool)) =>
      match q, res with
      | .read i pdu, .ok (bufferID, dup) => .stored i pdu m bufferID dup
      | _, _ => .idle
    -- the slot may be empty now
    | .execute .deleteAllSMS, _ => .idle
    | _, _ => q

variable {h w}

theorem receiptProtocol_spares (q : Receipt) (e : Call) (he : e.receives = false) :
    (receiptProtocol h w).allows q e := by
  cases e with
  | insert => cases he
  | event e =>
    cases e with
    | smsReceived => cases he
    | modemAlert => trivial
  | execute c =>
    cases c with
    | readSMS | deleteSMS => cases he
    | _ => trivial
  | _ => trivial

theorem obeys_receipt_of_spares {α : Type} {p : Work α} (hp : p.Calls fun e => e.receives = false)
    (q : Receipt) : p.Obeys (receiptProtocol h w) q fun _ _ => True :=
  hp.obeys_of_keeps (fun q e _ he => ⟨receiptProtocol_spares q e he, fun _ => trivial⟩) trivial

theorem receiveSMS_obeys_receipt (id : Identity) (index : ℤ) (q : Receipt) :
    (receiveSMS h w id index).Obeys (receiptProtocol h w) q fun _ _ => True := by
  refine Prog.perform_bind_obeys trivial fun (res : Except At.Err (List At.Line)) => ?_
  change Prog.Obeys _ _ (Receipt.ofRead index (res.bind (At.pduOf index))) _
  cases res.bind (At.pduOf index) with
  | error e => trivial
  | ok pdu =>
    dsimp only
    cases hdecode : At.decodePDU h.toHost pdu with
    | panic => exact ⟨trivial, fun _ => trivial⟩
    | err e =>
      -- the message is lost on purpose: it was read and does not decode
      exact Prog.perform_bind_obeys (.inl ⟨pdu, e, rfl, hdecode⟩) fun _ => trivial
    | ok d =>
      refine Prog.perform_bind_obeys ⟨index, pdu, d, rfl, hdecode, rfl⟩
        fun (inserted : Except Buffer.InsertErr (ℤ × Bool)) => ?_
      cases inserted with
      | error e => trivial
      | ok p =>
        obtain ⟨bufferID, dup⟩ := p
        refine Prog.perform_bind_obeys (.inr ⟨pdu, _, bufferID, dup, rfl⟩) fun _ => ?_
        cases dup with
        | true => trivial
        | false =>
          exact Prog.perform_bind_obeys trivial fun _ => Prog.perform_bind_obeys trivial fun _ =>
            ⟨⟨rfl, rfl⟩, fun _ => trivial⟩

theorem handleURC_obeys_receipt (id : Identity) (urc : At.Line) (q : Receipt) :
    (handleURC h w id urc).Obeys (receiptProtocol h w) q fun _ _ => True := by
  unfold handleURC
  by_cases hcmti : hasPrefix urc (lit "+CMTI:")
  · rw [if_pos hcmti]
    cases At.parseCMTI urc with
    | error e => trivial
    | ok idx => exact receiveSMS_obeys_receipt id idx q
  · rw [if_neg hcmti]
    refine obeys_receipt_of_spares (.ite ?_ (Prog.calls_pure _)) q
    generalize At.parseCREG urc = stat
    refine Prog.Calls.bind (calls_ask rfl) fun _ => .ite ?_ (Prog.calls_pure _)
    exact calls_enterBanned (fun e he => receives_of_ofInit e (ofInit_of_minor e he)) id urc rfl
      fun _ => rfl

theorem handle_obeys_receipt (id : Identity) (selected : Selected) (q : Receipt) :
    (handle h w id selected).Obeys (receiptProtocol h w) q fun _ _ => True := by
  by_cases hurc : ∃ line, selected = .urc line
  · obtain ⟨line, rfl⟩ := hurc
    exact handleURC_obeys_receipt id line q
  · refine obeys_receipt_of_spares ((calls_handle h w id selected).mono fun e he => ?_) q
    exact Bool.eq_false_iff.mpr fun hreceives => hurc (he.urc hreceives)

variable (h w)

/-- `Run` keeps to `receiptProtocol`. -/
def receiptRun : RunProof h w (receiptProtocol h w) where
  head l _ := l ≠ .watchdog
  final _ _ := True
  not_watchdog _ hq := hq rfl
  init_obeys q _ := by
    refine init_obeys_of_keeps h w (I := fun _ => True) (fun q e _ he => ?_) trivial
      (fun _ _ _ => nofun) fun _ _ => trivial
    exact ⟨receiptProtocol_spares q e (receives_of_ofInit e he), fun _ => trivial⟩
  main_obeys id q _ := by
    refine mainLoop_obeys_of_keeps h w id (I := fun _ => True) trivial ⟨trivial, nofun⟩
      (fun selected => handle_obeys_receipt id selected _)
      (fun q e _ he => ⟨receiptProtocol_spares q e ?_, fun _ => trivial⟩) (fun _ _ => nofun)
      fun _ _ _ => trivial
    cases e with
    | insert | event | execute => cases he
    | _ => rfl
  drain_obeys q _ := by
    refine drainInboundCh_obeys_of_keeps (I := fun _ => True)
      (fun q e _ he => ⟨receiptProtocol_spares q e ?_, fun _ => trivial⟩) trivial
      (fun _ _ => nofun) fun _ _ => trivial
    cases e with
    | insert | event | execute => cases he
    | _ => rfl

end

end SmsGate.Modem
