import SmsGate.Modem.Equiv.Receipt

/-!
# Crash safety of the receive path

Attempts to receive an SMS, one after the other, each on any slot of the SIM.  An attempt can see
every one of its calls fail, and it can be cut off between any two of them.  Meanwhile messages
arrive in empty slots, other workers insert into the same buffer, the cloud acknowledges rows and
old rows are purged.

Two things are assumed: `AT+CMGR` returns the PDU that is stored, and a statement of SQLite is
committed as a whole or not at all.  `AT+CMGD` may do its work and still be answered by an error,
and so may an insert.

`receiptProtocol` says in which order `receiveSMS` does things; `ReceiveInv` is what each of them
keeps true; `receive_safe` is the result.
-/

namespace SmsGate.Modem

open Go Go.Strings Tunnel

/-! ### The SIM, the buffer and the attempts -/

/-- What the attempts work on. -/
structure Inbox where
  /-- The PDU in each slot of the SIM. -/
  sim : ℤ → Option (List UInt8)
  table : Buffer.Table
  /-- The number of attempts that were started. -/
  attempt : ℕ
  /-- The rows that attempts have added: attempt, id and hash. -/
  inserted : List (ℕ × ℤ × List UInt8)
  /-- The events that attempts have pushed. -/
  pushed : List (ℕ × SMSReceivedEvent)

/-- Before the first attempt. -/
def Inbox.start (sim : ℤ → Option (List UInt8)) (table : Buffer.Table) : Inbox where
  sim := sim
  table := table
  attempt := 0
  inserted := []
  pushed := []

/-- What a call leaves open beside its answer. -/
structure Chance where
  /-- `AT+CMGD` has deleted the message. -/
  deleted : Bool
  fault : Buffer.Fault
  /-- The clock of the database, in seconds. -/
  sec : ℤ

/-- `AT+CMGR` is answered by the PDU in the slot: a header, and the PDU on one line or more, with
blanks around them or not.  An empty slot has no lines. -/
def faithful : Option (List UInt8) → List At.Line → Bool
  | none, lines => lines = []
  | some pdu, header :: parts => hasPrefix header (lit "+CMGR:") && parts.flatMap trimSpace = pdu
  | some _, [] => false

/-- The rows that an insert adds. -/
def addedRows (n : ℕ) (m : Buffer.Message) (t t' : Buffer.Table) : List (ℕ × ℤ × List UInt8) :=
  if ¬ t.Stores m.pduHash ∧ t'.Stores m.pduHash then [(n, t.seq + 1, m.pduHash)] else []

/-- What a call does. -/
def Inbox.exec (ch : Chance) (s : Inbox) : (e : Call) → e.Ans → Option Inbox
  | .select, (.urc _ : Selected) => some { s with attempt := s.attempt + 1 }
  | .select, _ => none
  | .execute (.readSMS i), (.ok lines : Except At.Err (List At.Line)) =>
    if faithful (s.sim i) lines then some s else none
  | .execute (.deleteSMS i), _ =>
    some { s with sim := if ch.deleted then Function.update s.sim i none else s.sim }
  | .insert m, (a : Except Buffer.InsertErr (ℤ × Bool)) =>
    let res := Buffer.insert ch.fault ch.sec m s.table
    if a = res.1 then
      some
        { s with
          table := res.2
          inserted := s.inserted ++ addedRows s.attempt m s.table res.2 }
    else none
  | .event (.smsReceived e), _ => some { s with pushed := s.pushed ++ [(s.attempt, e)] }
  | .panic, _ => none
  | _, _ => some s

/-- What happens meanwhile. -/
inductive Meanwhile where
  /-- A message arrives in an empty slot. -/
  | arrive (i : ℤ) (pdu : List UInt8)
  /-- Another worker inserts a message. -/
  | insert (fault : Buffer.Fault) (sec : ℤ) (m : Buffer.Message)
  | ack (now id : ℤ)
  | purge (cutoff : ℤ)

/-- A step of the rest of the world, up to the point where the row with this hash is purged. -/
def Meanwhile.step (hash : List UInt8) (s : Inbox) : Meanwhile → Option Inbox
  | .arrive i pdu =>
    if s.sim i = none then some { s with sim := Function.update s.sim i (some pdu) } else none
  | .insert fault sec m => some { s with table := (Buffer.insert fault sec m s.table).2 }
  | .ack now id => some { s with table := Buffer.markDelivered now id s.table }
  | .purge cutoff =>
    let t := (Buffer.purge cutoff s.table).2
    if s.table.Stores hash ∧ ¬ t.Stores hash then none else some { s with table := t }

section

variable (h : Host) (w : Worker) (id : Identity)

/-- An attempt: a URC comes in and is handled. -/
def attempt : Work (Unit ⊕ Empty) := do
  let selected : Selected ← ask .select
  match selected with
  | .urc line =>
    handleURC h w id line
    return .inl ()
  | _ => return .inl ()

/-- Attempts, one after the other, that can be cut off anywhere. -/
def receiveSystem (hash : List UInt8) :
    System Unit Inbox Call Call.Ans Unit Empty Chance Meanwhile where
  block _ _ := attempt h w id
  exec _ ch s e a := s.exec ch e a
  env v s := v.step hash s
  crash _ s := some ((), s)

end

/-! ### What the calls find -/

/-- An insert that succeeds leaves a row with the hash, and unless it reports a duplicate it has
added this row under the id that it returns. -/
theorem stores_of_insert_ok {t : Buffer.Table} {fault : Buffer.Fault} {sec : ℤ}
    {m : Buffer.Message} {bufferID : ℤ} {dup : Bool}
    (h : (Buffer.insert fault sec m t).1 = .ok (bufferID, dup)) :
    (Buffer.insert fault sec m t).2.Stores m.pduHash ∧
      (dup = false → ∀ n, (n, bufferID, m.pduHash) ∈
        addedRows n m t (Buffer.insert fault sec m t).2) := by
  have hpair : Buffer.insert fault sec m t =
      ((Buffer.insert fault sec m t).1, (Buffer.insert fault sec m t).2) := rfl
  rcases Buffer.insert_cases hpair with
    ⟨_, herr, _⟩ | ⟨hdup, hstores, hskip⟩ | ⟨hnew, hok, hpush⟩
  · cases herr.symm.trans h
  · cases hdup.symm.trans h
    rw [hskip]
    exact ⟨hstores, nofun⟩
  · cases hok.symm.trans h
    have hafter : (t.push sec m hnew).Stores m.pduHash := (Buffer.stores_push hnew).mpr (.inr rfl)
    rw [hpush]
    refine ⟨hafter, fun _ n => ?_⟩
    rw [addedRows, if_pos ⟨hnew, hafter⟩]
    exact List.mem_singleton_self _

/-- What `ReadSMS` makes of a faithful answer is the PDU in the slot. -/
theorem eq_of_faithful {slot : Option (List UInt8)} {lines : List At.Line} {i : ℤ}
    {pdu : List UInt8} (h : faithful slot lines) (hpdu : At.pduOf i lines = .ok pdu) :
    slot = some pdu := by
  match slot, lines, h with
  | none, lines, h =>
    rw [of_decide_eq_true h] at hpdu
    cases hpdu
  | some stored, header :: parts, h =>
    simp only [faithful, Bool.and_eq_true, decide_eq_true_eq] at h
    have hdrop : (header :: parts).dropWhile (fun l => !hasPrefix l (lit "+CMGR:")) =
        header :: parts := by
      rw [List.dropWhile_cons, h.1]
      rfl
    unfold At.pduOf at hpdu
    rw [if_neg (List.cons_ne_nil header parts), hdrop] at hpdu
    cases parts with
    | nil => cases hpdu
    | cons part parts =>
      dsimp only at hpdu
      rw [h.2] at hpdu
      split_ifs at hpdu
      rw [Except.ok.inj hpdu]

/-! ### What holds along the way -/

variable {h : Host} {w : Worker}

theorem attempt_obeys (id : Identity) (q : Receipt) :
    (attempt h w id).Obeys (receiptProtocol h w) q fun _ _ => True := by
  refine Prog.perform_bind_obeys trivial fun (selected : Selected) => ?_
  cases selected with
  | urc line => exact (handleURC_obeys_receipt id line _).bind fun _ _ _ => trivial
  | _ => trivial

section Invariant

variable (slot : ℤ) (pdu hash : List UInt8)

/-- What is known of the stage of the current attempt. -/
def StageOk (s : Inbox) : Receipt → Prop
  | .idle => True
  | .read i x => s.sim i = some x
  | .stored i x m bufferID dup =>
    s.sim i = some x ∧ (x = pdu → s.table.Stores hash) ∧
      (dup = false → (s.attempt, bufferID, m.pduHash) ∈ s.inserted)
  | .deleted m bufferID dup => dup = false → (s.attempt, bufferID, m.pduHash) ∈ s.inserted

/-- The invariant: the message is in its slot or its row is in the table, and every event was
pushed by the attempt that added the row. -/
structure ReceiveInv (s : Inbox) (q : Receipt) : Prop where
  safe : s.sim slot = some pdu ∨ s.table.Stores hash
  pushed : ∀ n e, (n, e) ∈ s.pushed → (n, e.bufferID, e.pduHash) ∈ s.inserted
  stage : StageOk pdu hash s q

variable {slot pdu hash}

/-- Messages that arrive and rows that are added change nothing of this. -/
theorem ReceiveInv.mono {s s' : Inbox} {q : Receipt} (hinv : ReceiveInv slot pdu hash s q)
    (hsim : ∀ i x, s.sim i = some x → s'.sim i = some x)
    (htable : s.table.Stores hash → s'.table.Stores hash) (hattempt : s'.attempt = s.attempt)
    (hinserted : s'.inserted = s.inserted) (hpushed : s'.pushed = s.pushed) :
    ReceiveInv slot pdu hash s' q where
  safe := hinv.safe.imp (hsim slot pdu) htable
  pushed := by
    rw [hpushed, hinserted]
    exact hinv.pushed
  stage := by
    have hstage := hinv.stage
    cases q with
    | idle => trivial
    | read i x => exact hsim i x hstage
    | stored i x m bufferID dup =>
      unfold StageOk at hstage ⊢
      rw [hattempt, hinserted]
      exact ⟨hsim i x hstage.1, fun hx => htable (hstage.2.1 hx), hstage.2.2⟩
    | deleted m bufferID dup =>
      unfold StageOk at hstage ⊢
      rwa [hattempt, hinserted]

/-- A new attempt, or a crash. -/
theorem ReceiveInv.restart {s : Inbox} {q : Receipt} (hinv : ReceiveInv slot pdu hash s q) (n : ℕ) :
    ReceiveInv slot pdu hash { s with attempt := n } .idle where
  safe := hinv.safe
  pushed := hinv.pushed
  stage := trivial

variable {d : At.DecodedSMS} {ch : Chance} {s s' : Inbox} {q : Receipt}

theorem receiveInv_read {i : ℤ} {a : Except At.Err (List At.Line)}
    (hinv : ReceiveInv slot pdu hash s q) (hexec : s.exec ch (.execute (.readSMS i)) a = some s') :
    ReceiveInv slot pdu hash s' ((receiptProtocol h w).next q (.execute (.readSMS i)) a) := by
  cases a with
  | error e =>
    cases hexec
    exact hinv.restart s.attempt
  | ok lines =>
    obtain ⟨hfaithful, hs⟩ := Option.ite_none_right_eq_some.mp hexec
    cases hs
    have hnext : (receiptProtocol h w).next q (.execute (.readSMS i)) (.ok lines) =
        .ofRead i (At.pduOf i lines) := rfl
    rw [hnext]
    cases hpdu : At.pduOf i lines with
    | error e => exact hinv.restart s.attempt
    | ok x => exact ⟨hinv.safe, hinv.pushed, eq_of_faithful hfaithful hpdu⟩

/-- The step that cannot be undone: when a message is deleted, it does not decode or its row is in
the table. -/
theorem receiveInv_delete {i : ℤ} {a : Except At.Err (List At.Line)}
    (hd : At.decodePDU h.toHost pdu = .ok d) (hinv : ReceiveInv slot pdu hash s q)
    (hallow : (receiptProtocol h w).allows q (.execute (.deleteSMS i)))
    (hexec : s.exec ch (.execute (.deleteSMS i)) a = some s') :
    ReceiveInv slot pdu hash s' ((receiptProtocol h w).next q (.execute (.deleteSMS i)) a) := by
  cases hexec
  -- what was read from the slot is what is deleted
  have hsafe : ∀ x, s.sim i = some x → (x = pdu → s.table.Stores hash) →
      (if ch.deleted then Function.update s.sim i none else s.sim) slot = some pdu ∨
        s.table.Stores hash := by
    intro x hx hstores
    rcases hinv.safe with hslot | hrow
    · by_cases hi : slot = i
      · subst hi
        exact .inr (hstores (Option.some.inj (hx.symm.trans hslot)))
      · left
        split_ifs
        · rwa [Function.update_of_ne hi]
        · exact hslot
    · exact .inr hrow
  have hstage := hinv.stage
  rcases hallow with ⟨x, err, rfl, herr⟩ | ⟨x, m, bufferID, dup, rfl⟩
  · refine ⟨hsafe x hstage fun hx => ?_, hinv.pushed, trivial⟩
    rw [hx, hd] at herr
    cases herr
  · exact ⟨hsafe x hstage.1 hstage.2.1, hinv.pushed, hstage.2.2⟩

theorem receiveInv_insert {m : Buffer.Message} {a : Except Buffer.InsertErr (ℤ × Bool)}
    (hd : At.decodePDU h.toHost pdu = .ok d) (hhash : d.pduHash = hash)
    (hinv : ReceiveInv slot pdu hash s q) (hallow : (receiptProtocol h w).allows q (.insert m))
    (hexec : s.exec ch (.insert m) a = some s') :
    ReceiveInv slot pdu hash s' ((receiptProtocol h w).next q (.insert m) a) := by
  obtain ⟨i, x, d', rfl, hd', hm⟩ := hallow
  obtain ⟨ha, hs⟩ := Option.ite_none_right_eq_some.mp hexec
  cases hs
  have hsafe : s.sim slot = some pdu ∨
      (Buffer.insert ch.fault ch.sec m s.table).2.Stores hash :=
    hinv.safe.imp_right Buffer.stores_insert
  have hpushed : ∀ n e, (n, e) ∈ s.pushed → (n, e.bufferID, e.pduHash) ∈ s.inserted ++
      addedRows s.attempt m s.table (Buffer.insert ch.fault ch.sec m s.table).2 :=
    fun n e he => List.mem_append_left _ (hinv.pushed n e he)
  cases a with
  | error e => exact ⟨hsafe, hpushed, trivial⟩
  | ok p =>
    obtain ⟨bufferID, dup⟩ := p
    obtain ⟨hstores, hadded⟩ := stores_of_insert_ok ha.symm
    refine ⟨hsafe, hpushed, hinv.stage, fun hx => ?_, fun hdup => ?_⟩
    · rw [hx, hd] at hd'
      have hpdu : m.pduHash = d'.pduHash := congrArg Buffer.Message.pduHash hm
      rwa [← hhash, Outcome.ok.inj hd', ← hpdu]
    · exact List.mem_append_right _ (hadded hdup s.attempt)

theorem receiveInv_event {e : Event} (hinv : ReceiveInv slot pdu hash s q)
    (hallow : (receiptProtocol h w).allows q (.event e))
    (hexec : s.exec ch (.event e) () = some s') :
    ReceiveInv slot pdu hash s' ((receiptProtocol h w).next q (.event e) ()) := by
  cases e with
  | modemAlert e =>
    cases hexec
    exact hinv
  | smsReceived e =>
    obtain ⟨rfl, -⟩ := hallow
    cases hexec
    refine ⟨hinv.safe, fun n e' he' => ?_, hinv.stage⟩
    rcases List.mem_append.mp he' with he' | he'
    · exact hinv.pushed n e' he'
    · cases List.mem_singleton.mp he'
      exact hinv.stage rfl

/-- Every call keeps the invariant. -/
theorem receiveInv_call {e : Call} {a : e.Ans} (hd : At.decodePDU h.toHost pdu = .ok d)
    (hhash : d.pduHash = hash) (hinv : ReceiveInv slot pdu hash s q)
    (hallow : (receiptProtocol h w).allows q e) (hexec : s.exec ch e a = some s') :
    ReceiveInv slot pdu hash s' ((receiptProtocol h w).next q e a) := by
  cases e with
  | select =>
    cases a with
    | urc line =>
      cases hexec
      exact hinv.restart _
    | _ => cases hexec
  | execute c =>
    cases c with
    | readSMS i => exact receiveInv_read hinv hexec
    | deleteSMS i => exact receiveInv_delete hd hinv hallow hexec
    | deleteAllSMS =>
      cases hexec
      exact hinv.restart s.attempt
    | _ =>
      cases hexec
      exact hinv
  | insert m => exact receiveInv_insert hd hhash hinv hallow hexec
  | event e => exact receiveInv_event hinv hallow hexec
  | panic => cases hexec
  | _ =>
    cases hexec
    exact hinv

/-- So does everything that happens meanwhile. -/
theorem receiveInv_meanwhile {v : Meanwhile} (hinv : ReceiveInv slot pdu hash s q)
    (hstep : v.step hash s = some s') : ReceiveInv slot pdu hash s' q := by
  cases v with
  | arrive i x =>
    obtain ⟨hempty, hs⟩ := Option.ite_none_right_eq_some.mp hstep
    cases hs
    refine hinv.mono (fun j y hy => ?_) (fun hrow => hrow) rfl rfl rfl
    have hj : j ≠ i := by
      rintro rfl
      rw [hempty] at hy
      cases hy
    exact (Function.update_of_ne hj _ _).trans hy
  | insert fault sec m =>
    cases hstep
    exact hinv.mono (fun _ _ hx => hx) Buffer.stores_insert rfl rfl rfl
  | ack now id =>
    cases hstep
    exact hinv.mono (fun _ _ hx => hx) Buffer.stores_markDelivered rfl rfl rfl
  | purge cutoff =>
    unfold Meanwhile.step at hstep
    dsimp only at hstep
    split_ifs at hstep with hpurged
    cases hstep
    refine hinv.mono (fun _ _ hx => hx) (fun hrow => ?_) rfl rfl rfl
    by_contra hgone
    exact hpurged ⟨hrow, hgone⟩

end Invariant

/-! ### Whole runs -/

section Runs

variable (w : Worker) (id : Identity) (slot : ℤ) {pdu : List UInt8} {d : At.DecodedSMS}

/-- The proof outline of the receive path. -/
def receiveOutline (hd : At.decodePDU h.toHost pdu = .ok d) :
    System.Outline (receiveSystem h w id d.pduHash) fun _ => receiptProtocol h w where
  head _ _ _ := True
  final _ r _ := r.elim
  inv s q := ReceiveInv slot pdu d.pduHash s (q ())
  block_obeys _ _ q _ := (attempt_obeys id q).mono fun res q' _ => by
    cases res with
    | inl l => trivial
    | inr r => cases r
  call_inv _ ch s q e a s' hinv hallow hexec := by
    rw [Function.update_self]
    exact receiveInv_call hd rfl hinv hallow hexec
  env_inv v s q s' hinv hstep := receiveInv_meanwhile hinv hstep
  crash_inv _ s q l s' hinv hcrash := by
    cases hcrash
    exact ⟨.idle, trivial, by rw [Function.update_self]; exact hinv.restart s.attempt⟩

/-- **No SMS is lost between the SIM and the buffer.**  Take a message in a slot of the SIM that
`DecodePDU` accepts, and any run of attempts, failures and crashes.  Until its row is purged the
message is still in its slot or its hash is in the table; the table has at most one row with this
hash; and every `SMS_RECEIVED` was pushed by the attempt that added the row, with the id of this
row. -/
theorem receive_safe (hd : At.decodePDU h.toHost pdu = .ok d)
    (sim : ℤ → Option (List UInt8)) (table : Buffer.Table) (hsim : sim slot = some pdu)
    {c : System.Config Unit Inbox Call Call.Ans Unit Empty}
    (hreach : (receiveSystem h w id d.pduHash).Reach
      ((receiveSystem h w id d.pduHash).start (Inbox.start sim table) fun _ => ()) c) :
    (c.state.sim slot = some pdu ∨ c.state.table.Stores d.pduHash) ∧
      (c.state.table.rows.filter fun r => r.message.pduHash = d.pduHash).length ≤ 1 ∧
      ∀ n e, (n, e) ∈ c.state.pushed → (n, e.bufferID, e.pduHash) ∈ c.state.inserted := by
  have hstart : (receiveOutline w id slot hd).Holds
      ((receiveSystem h w id d.pduHash).start (Inbox.start sim table) fun _ => ()) :=
    (receiveOutline w id slot hd).holds_start (q := fun _ => .idle)
      ⟨.inl hsim, nofun, trivial⟩ fun _ => trivial
  obtain ⟨q, hinv, _⟩ := (receiveOutline w id slot hd).reach hstart hreach
  exact ⟨hinv.safe, Buffer.length_rows_with_hash_le _ _, hinv.pushed⟩

end Runs

/-! ### A crash between the insert and the deletion -/

/-- An `A` from the number 12. -/
def samplePDU : List UInt8 := lit "00040291210000421010214365000141"

def sampleSMS : At.DecodedSMS where
  smsc := []
  sender := lit "+12"
  body := lit "A"
  -- `decodeSCTS` reads the decimal digits 24, 01, 01, 12, 34, 56 as hexadecimal ones
  timestamp := Time.date 2036 1 1 18 52 86 0
  pduHash := lit "sha256:"

def sampleID : Identity where
  iccid := lit "89490200000123456789"
  imsi := []
  operator := []

/-- The answers of the modem, and of an insert. -/
def sampleAnswer (inserted : Except Buffer.InsertErr (ℤ × Bool)) : (e : Call) → e.Ans
  | .select => .urc (lit "+CMTI: \"SM\",3")
  | .execute (.readSMS _) => .ok [lit "+CMGR: 0,,16", samplePDU]
  | .insert _ => inserted
  | e => e.plainAns

/-- A number of calls of an attempt. -/
def sampleCalls (n : ℕ) (inserted : Except Buffer.InsertErr (ℤ × Bool)) :
    List (System.Move Unit Call Call.Ans Chance Meanwhile) :=
  List.replicate n (.call () ⟨true, .none, 0⟩ (sampleAnswer inserted))

/-- The first attempt is cut off once the message is inserted, the second one finds it there and
deletes it from the SIM. -/
theorem receive_safe_crash :
    ∃ c : System.Config Unit Inbox Call Call.Ans Unit Empty,
      (receiveSystem .plain .plain sampleID sampleSMS.pduHash).Reach
        ((receiveSystem .plain .plain sampleID sampleSMS.pduHash).start
          (Inbox.start (fun i => if i = 3 then some samplePDU else none) .empty) fun _ => ()) c ∧
      c.state.sim 3 = none ∧
      ((c.state.sim 3 = some samplePDU ∨ c.state.table.Stores sampleSMS.pduHash) ∧
        (c.state.table.rows.filter fun r => r.message.pduHash = sampleSMS.pduHash).length ≤ 1 ∧
        ∀ n e, (n, e) ∈ c.state.pushed → (n, e.bufferID, e.pduHash) ∈ c.state.inserted) := by
  have hplay : ((receiveSystem .plain .plain sampleID sampleSMS.pduHash).play
      ((receiveSystem .plain .plain sampleID sampleSMS.pduHash).start
        (Inbox.start (fun i => if i = 3 then some samplePDU else none) .empty) fun _ => ())
      (sampleCalls 3 (.ok (1, false)) ++ .crash () :: sampleCalls 4 (.ok (0, true)))).map
        (fun c => c.state.sim 3) = some none := by
    decide +kernel
  obtain ⟨c, hc, hempty⟩ := Option.map_eq_some_iff.mp hplay
  have hreach := System.reach_of_play hc
  have hd : At.decodePDU Host.plain.toHost samplePDU = .ok sampleSMS := by decide +kernel
  exact ⟨c, hreach, hempty, receive_safe .plain sampleID 3 hd _ _ rfl hreach⟩

end SmsGate.Modem
