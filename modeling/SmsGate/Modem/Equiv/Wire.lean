import SmsGate.At.Equiv.UserData
import SmsGate.Modem.Equiv.Noise

/-!
# Decoded text on the wire

An `SMS_RECEIVED` event leaves the gateway as JSON, and JSON text is UTF-8: `encoding/json` puts
U+FFFD in the place of every byte that is not a part of a rune.  The senders that `DecodePDU`
returns are UTF-8 (`valid_address`), and so are the bodies in GSM7 and UCS2.  A body in 8-bit data
is the octets themselves.

* `receiveSMS_pushes`: the event has the sender and the body of the PDU that was read;
* `receive_wire_iff`: the sender survives the wire, and the body does if and only if it is no 8-bit
  data or the octets happen to be UTF-8.
-/

namespace SmsGate.Tunnel

open Go.Utf8

/-- A text as `encoding/json` writes it: an invalid byte becomes U+FFFD. -/
def jsonText (s : List UInt8) : List UInt8 := encodeRunes (runes s)

/-- The event with its texts as `encoding/json` writes them. -/
def SMSReceivedEvent.jsonTexts (e : SMSReceivedEvent) : SMSReceivedEvent where
  envelope := { e.envelope with messageID := jsonText e.envelope.messageID }
  gatewayID := jsonText e.gatewayID
  iccid := jsonText e.iccid
  sender := jsonText e.sender
  body := jsonText e.body
  receivedAt := e.receivedAt
  smsc := jsonText e.smsc
  pduHash := jsonText e.pduHash
  bufferID := e.bufferID

/-- `json.Marshal` and `json.Unmarshal` for an `SMSReceivedEvent`, through texts of any type. -/
structure EventCodec (τ : Type) where
  marshal : SMSReceivedEvent → τ
  unmarshal : τ → Option SMSReceivedEvent
  unmarshal_marshal : ∀ e, unmarshal (marshal e) = some e.jsonTexts

/-- A codec whose texts are the events themselves. -/
def EventCodec.plain : EventCodec SMSReceivedEvent where
  marshal := SMSReceivedEvent.jsonTexts
  unmarshal := some
  unmarshal_marshal _ := rfl

end SmsGate.Tunnel

namespace SmsGate.At

open Go Go.Utf8

/-! ### What is valid UTF-8 -/

theorem valid_of_ascii {s : List UInt8} (h : ∀ c ∈ s, c.toNat < 128) : Valid s := by
  rw [← Hex.encodeRunes_map_asciiRune h]
  exact valid_encodeRunes _

/-- A digit of an address is an ASCII character, also for the nibbles that are no digits. -/
theorem bcdDigits_lt (data : List UInt8) (n : ℕ) : ∀ c ∈ bcdDigits data n, c.toNat < 128 := by
  have hnibble : ∀ b : UInt8, ((0x30 : UInt8) + (b &&& 0x0F)).toNat < 128 ∧
      ((0x30 : UInt8) + ((b >>> (4 : UInt8)) &&& 0x0F)).toNat < 128 := by
    decide +kernel
  intro c hc
  obtain ⟨nibble, hnib, rfl⟩ := List.mem_map.mp hc
  have hmem := List.mem_of_mem_take ((List.takeWhile_sublist _).subset hnib)
  obtain ⟨b, -, hb⟩ := List.mem_flatMap.mp hmem
  rcases List.mem_cons.mp hb with rfl | hb
  · exact (hnibble b).1
  · rw [List.mem_singleton.mp hb]
    exact (hnibble b).2

theorem valid_address (data : List UInt8) (n : ℕ) (addrType : UInt8) :
    Valid (address data n addrType) := by
  rw [address]
  split_ifs
  · exact valid_encodeRunes _
  · refine valid_of_ascii fun c hc => ?_
    rcases List.mem_append.mp hc with hc | hc
    · rw [List.mem_singleton.mp hc]
      decide
    · exact bcdDigits_lt data n c hc
  · exact valid_of_ascii (bcdDigits_lt data n)

theorem valid_bodyText_iff (enc : Encoding) (ud : List UInt8) (n : ℕ) :
    Valid (bodyText enc ud n) ↔ (enc = .eightBit → Valid (ud.take n)) := by
  cases enc with
  | gsm7 => exact ⟨nofun, fun _ => valid_encodeRunes _⟩
  | ucs2 => exact ⟨nofun, fun _ => valid_encodeRunes _⟩
  | eightBit => exact ⟨fun h _ => h, fun h => h rfl⟩

end SmsGate.At

namespace SmsGate.Modem

open Go Go.Utf8 Go.Strings Tunnel

/-! ### The event of a message -/

/-- The `SMS_RECEIVED` events that were pushed. -/
def pushedEvents : ReadHistory → List SMSReceivedEvent :=
  System.collected fun
    | .call _ (.event (.smsReceived e)) _ _ => [e]
    | _ => []

/-- Events of the message `d`, in a run in which `AT+CMGR` is answered by `res`; the state tells
whether it was answered otherwise. -/
def pushProtocol (d : At.DecodedSMS) (res : Except At.Err (List At.Line)) :
    Protocol Call Call.Ans Bool where
  allows astray e :=
    match e with
    | .event (.smsReceived ev) => astray = false → ev.sender = d.sender ∧ ev.body = d.body
    | _ => True
  next astray e a :=
    match e, a with
    | .execute (.readSMS _), (a : Except At.Err (List At.Line)) => if a = res then astray else true
    | _, _ => astray

section

variable {h : Host} {w : Worker} {id : Identity} {i : ℤ} {d : At.DecodedSMS}
  {lines : List At.Line} {x : List UInt8}

theorem next_astray (e : Call) (a : e.Ans) : (pushProtocol d (.ok lines)).next true e a = true := by
  cases e with
  | execute c =>
    cases c with
    | readSMS j => exact ite_self true
    | _ => rfl
  | _ => rfl

theorem next_of_answersRead {e : Call} {a : e.Ans} (hanswer : answersRead (.ok lines) e a) :
    (pushProtocol d (.ok lines)).next false e a = false := by
  cases e with
  | execute c =>
    cases c with
    | readSMS j =>
      have ha : (show Except At.Err (List At.Line) from a) = .ok lines := of_decide_eq_true hanswer
      exact if_pos ha
    | _ => rfl
  | _ => rfl

/-- In a run in which `AT+CMGR` was answered otherwise, anything may follow. -/
theorem obeys_of_astray {α : Type} (p : Work α) :
    p.Obeys (pushProtocol d (.ok lines)) true fun _ _ => True := by
  induction p with
  | ret a => trivial
  | call e k ih =>
    refine ⟨?_, fun a => ?_⟩
    · cases e with
      | event ev =>
        cases ev with
        | smsReceived ev => exact nofun
        | modemAlert ev => trivial
      | _ => trivial
    · rw [next_astray]
      exact ih a

theorem receiveSMS_obeys_push (w : Worker) (hx : At.pduOf i lines = .ok x)
    (hd : At.decodePDU h.toHost x = .ok d) :
    (receiveSMS h w id i).Obeys (pushProtocol d (.ok lines)) false fun _ _ => True := by
  refine Prog.perform_bind_obeys trivial fun (a : Except At.Err (List At.Line)) => ?_
  by_cases ha : a = .ok lines
  · have hnext : (pushProtocol d (.ok lines)).next false (.execute (.readSMS i)) a = false :=
      if_pos ha
    rw [hnext, ha, show (Except.ok lines : Except At.Err (List At.Line)).bind (At.pduOf i) = .ok x
      from hx]
    dsimp only
    rw [hd]
    refine Prog.perform_bind_obeys trivial
      fun (inserted : Except Buffer.InsertErr (ℤ × Bool)) => ?_
    cases inserted with
    | error e => trivial
    | ok r =>
      refine Prog.perform_bind_obeys trivial fun _ => ?_
      dsimp only
      split_ifs
      · trivial
      · exact ⟨trivial, fun _ => ⟨trivial, fun _ => ⟨fun _ => ⟨rfl, rfl⟩, fun _ => trivial⟩⟩⟩
  · have hnext : (pushProtocol d (.ok lines)).next false (.execute (.readSMS i)) a = true :=
      if_neg ha
    rw [hnext]
    exact obeys_of_astray _

/-- The events of a run are about this message. -/
def Pushes (d : At.DecodedSMS) (past : ReadHistory) : Prop :=
  ∀ e ∈ pushedEvents past, e.sender = d.sender ∧ e.body = d.body

theorem Pushes.call {past : ReadHistory} {e : Call} {a : e.Ans} (hpast : Pushes d past)
    (hallow : (pushProtocol d (.ok lines)).allows false e) :
    Pushes d (.call () e a () :: past) := by
  intro ev hev
  rcases List.mem_append.mp hev with hev | hev
  · exact hpast ev hev
  · cases e with
    | event ev' =>
      cases ev' with
      | smsReceived ev' =>
        obtain rfl : ev = ev' := List.mem_singleton.mp hev
        exact hallow rfl
      | modemAlert ev' => cases hev
    | _ => cases hev

/-- The proof outline. -/
def pushOutline (w : Worker) (hx : At.pduOf i lines = .ok x)
    (hd : At.decodePDU h.toHost x = .ok d) :
    System.Outline (readSystem h w id i (.ok lines)).recorded
      fun _ => pushProtocol d (.ok lines) where
  head _ _ q := q = false
  final _ _ _ := True
  inv s q := q () = false ∧ Pushes d s.history
  block_obeys _ _ q hq := by
    obtain rfl : q = false := hq
    exact (receiveSMS_obeys_push w hx hd).bind fun _ _ _ => trivial
  call_inv _ _ s q e a s' hinv hallow hexec := by
    obtain ⟨s₁, hstep, rfl⟩ := System.recorded_exec_iff.mp hexec
    obtain ⟨hanswer, -⟩ := Option.ite_none_right_eq_some.mp hstep
    obtain ⟨hq, hpast⟩ := hinv
    rw [Function.update_self]
    rw [hq] at hallow ⊢
    exact ⟨next_of_answersRead hanswer, hpast.call hallow⟩
  env_inv v _ _ _ _ _ := v.elim
  crash_inv _ _ _ _ _ _ hcrash := by cases hcrash

/-- The event has the sender and the body of the message that was read. -/
theorem receiveSMS_pushes (hx : At.pduOf i lines = .ok x)
    (hd : At.decodePDU h.toHost x = .ok d) {c : ReadConfig}
    (hreach : (readSystem h w id i (.ok lines)).recorded.Reach
      (readStart h w id i (.ok lines)) c) : Pushes d c.state.history := by
  have hstart : (pushOutline w hx hd).Holds (readStart h w id i (.ok lines)) :=
    (pushOutline w hx hd).holds_start (q := fun _ => false) ⟨rfl, nofun⟩ fun _ => rfl
  obtain ⟨q, hinv, -⟩ := (pushOutline w hx hd).reach hstart hreach
  exact hinv.2

end

/-- **What survives the wire.**  Let `receiveSMS` read any PDU that `DecodePDU` accepts.  The sender
is valid UTF-8.  The body is if and only if its alphabet is not 8-bit data or the octets are UTF-8.
In every run of `receiveSMS`, the event that it pushes is marshalled and unmarshalled with the
decoded sender; the decoded body comes back under the same condition. -/
theorem receive_wire_iff {τ : Type} (codec : EventCodec τ) (h : Host) (w : Worker) (id : Identity)
    (i : ℤ) {lines : List At.Line} {x : List UInt8} {p : At.Deliver}
    (hx : At.pduOf i lines = .ok x) (hp : At.HexOf x p.octets) :
    ∃ d, At.decodePDU h.toHost x = .ok d ∧ Valid d.sender ∧
      (Valid d.body ↔
        (At.dcsEncoding p.dcs = .eightBit → Valid (p.payload.take p.payloadLen))) ∧
      ∀ c, (readSystem h w id i (.ok lines)).recorded.Reach (readStart h w id i (.ok lines)) c →
        ∀ e ∈ pushedEvents c.state.history,
          ∃ e', codec.unmarshal (codec.marshal e) = some e' ∧ e'.sender = d.sender ∧
            (e'.body = d.body ↔
              (At.dcsEncoding p.dcs = .eightBit → Valid (p.payload.take p.payloadLen))) := by
  have hd := At.decodePDU_octets h.toHost hp
  have hsender : Valid (p.decoded (lit "sha256:" ++ Hex.encodeToString
      (h.toHost.sum256 (trimSpace (toUpper h.toHost.caseTable x))))).sender :=
    At.valid_address _ _ _
  have hbody := At.valid_bodyText_iff (At.dcsEncoding p.dcs) p.payload p.payloadLen
  refine ⟨_, hd, hsender, hbody, fun c hreach e he => ?_⟩
  obtain ⟨hes, heb⟩ := receiveSMS_pushes hx hd hreach e he
  refine ⟨_, codec.unmarshal_marshal e, ?_, ?_⟩
  · change jsonText e.sender = _
    rw [hes]
    exact hsender
  · change jsonText e.body = _ ↔ _
    rw [heb]
    exact hbody

/-- The answers to `receiveSMS`: a PDU, and an insert that succeeds. -/
def wireAnswer (pdu : List UInt8) : (e : Call) → e.Ans
  | .execute (.readSMS _) => .ok [lit "+CMGR: 0,,16", pdu]
  | .insert _ => .ok (1, false)
  | e => e.plainAns

/-- What `receiveSMS` pushes for a PDU, in a run with these answers. -/
def wireEvents (pdu : List UInt8) : Option (List SMSReceivedEvent) :=
  ((readSystem .plain .plain sampleID 3 (.ok [lit "+CMGR: 0,,16", pdu])).recorded.play
    (readStart .plain .plain sampleID 3 (.ok [lit "+CMGR: 0,,16", pdu]))
    (List.replicate 6 (.call () () (wireAnswer pdu)))).map fun c => pushedEvents c.state.history

/-- The event of such a run, for a message from the number 12. -/
def wireEvent (body : List UInt8) : SMSReceivedEvent where
  envelope := ⟨.smsReceived, [], 0⟩
  gatewayID := []
  iccid := sampleID.iccid
  sender := lit "+12"
  body := body
  receivedAt := 2082826406000
  smsc := []
  pduHash := lit "sha256:"
  bufferID := 1

/-- An `A` in GSM7. -/
theorem receive_wire_iff_gsm7 : ∃ c,
    (readSystem .plain .plain sampleID 3 (.ok [lit "+CMGR: 0,,16", samplePDU])).recorded.Reach
      (readStart .plain .plain sampleID 3 (.ok [lit "+CMGR: 0,,16", samplePDU])) c ∧
    pushedEvents c.state.history = [wireEvent (lit "A")] ∧
    ∃ e', EventCodec.plain.unmarshal (EventCodec.plain.marshal (wireEvent (lit "A"))) = some e' ∧
      e'.sender = sampleSMS.sender ∧ e'.body = sampleSMS.body := by
  have hevents : wireEvents samplePDU = some [wireEvent (lit "A")] := by decide +kernel
  obtain ⟨c, hplay, hpushed⟩ := Option.map_eq_some_iff.mp hevents
  have hreach := System.reach_of_play hplay
  have hx : At.pduOf 3 [lit "+CMGR: 0,,16", samplePDU] = .ok samplePDU := by decide
  have hp : At.HexOf samplePDU (At.sampleMessage 0x00 1 [0x41]).octets := by decide
  obtain ⟨d, hd, -, -, hwire⟩ := receive_wire_iff .plain .plain .plain sampleID 3 hx hp
  obtain rfl : d = sampleSMS := Go.Outcome.ok.inj (hd.symm.trans sampleSMS_decodes)
  obtain ⟨e', hround, hsender, hbody⟩ := hwire c hreach (wireEvent (lit "A"))
    (by rw [hpushed]; exact List.mem_singleton_self _)
  exact ⟨c, hreach, hpushed, e', hround, hsender, hbody.mpr nofun⟩

/-- The octet `FF` as 8-bit data: the body is no UTF-8, and comes back as U+FFFD. -/
theorem not_receive_wire : ∃ c d,
    (readSystem .plain .plain sampleID 3
      (.ok [lit "+CMGR: 0,,16", lit "000402912100044210102143650001FF"])).recorded.Reach
      (readStart .plain .plain sampleID 3
        (.ok [lit "+CMGR: 0,,16", lit "000402912100044210102143650001FF"])) c ∧
    At.decodePDU Host.plain.toHost (lit "000402912100044210102143650001FF") = .ok d ∧
    d.body = [0xFF] ∧ ¬ Valid d.body ∧ pushedEvents c.state.history = [wireEvent d.body] ∧
    ∃ e', EventCodec.plain.unmarshal (EventCodec.plain.marshal (wireEvent d.body)) = some e' ∧
      e'.body = [0xEF, 0xBF, 0xBD] := by
  have hevents : wireEvents (lit "000402912100044210102143650001FF") =
      some [wireEvent [0xFF]] := by
    decide
  obtain ⟨c, hplay, hpushed⟩ := Option.map_eq_some_iff.mp hevents
  have hp : At.HexOf (lit "000402912100044210102143650001FF")
      (At.sampleMessage 0x04 1 [0xFF]).octets := by decide
  have hinvalid : ¬ Valid [0xFF] := by
    change ¬ encodeRunes (runes [0xFF]) = _
    decide
  have hjson : jsonText [0xFF] = [0xEF, 0xBF, 0xBD] := by decide
  exact ⟨c, _, System.reach_of_play hplay, At.decodePDU_octets _ hp, rfl, hinvalid, hpushed, _,
    rfl, hjson⟩

end SmsGate.Modem
