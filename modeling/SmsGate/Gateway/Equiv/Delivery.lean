import SmsGate.Buffer.Equiv.Ledger
import SmsGate.Gateway.Equiv.Runs
import SmsGate.Modem.Equiv.Drain
import SmsGate.Modem.Equiv.Identity
import SmsGate.Modem.Equiv.Wire
import SmsGate.Tunnel.Equiv.Carry
import SmsGate.Tunnel.Equiv.Outbox

/-!
# From the SIM to the cloud

What becomes of a message on its way through the gateway, over every run: any interleaving of the
tunnel's goroutines, over any number of connections, with those of all modems, any failures of the
modems, the database and the connections, restarts of workers, and any messages from the cloud.

What the gateway tells the cloud about messages is consistent: every `SMS_RECEIVED` that it writes,
for the first time or again, from the outbox or from the buffer, carries a message that was stored
under its buffer id, and no other message ever is (`notices_agree`).

The rest depends on the modems.  A worker takes what `Execute` returns for `AT+CMGR` for the PDU in
the slot, and deletes the slot when it cannot be decoded: a line of another kind among the lines of
the reply, or a reply in text mode, is enough.  As long as the replies are faithful, a message that
has arrived and that `DecodePDU` accepts is on the SIM, or in the buffer and pending, or a row with
its hash was acknowledged by the cloud, unless a `DeleteAllSMS` of its worker has met it on the SIM
(`sms_kept`); and the messages that the cloud is told of are what PDUs on the SIMs say
(`notices_authentic`).

The table and the SIMs are arbitrary at the start, so a run of the gateway can follow another one.
-/

namespace SmsGate.Gateway

open Go Tunnel Modem

variable {ι : Type}

/-! ### What a history tells of messages -/

/-- An acknowledgement of a row was read from a connection. -/
def Acked (past : History ι) (id : ℤ) : Prop :=
  ∃ t n s, .call (.tunnel t) (.tunnel (.readMessage n))
    (some (.smsDeliveredAck id) : Option Inbound) s ∈ past

/-- The row was acknowledged, or it was marked as delivered from the start. -/
def Settled (table₀ : Buffer.Table) (past : History ι) (id : ℤ) : Prop :=
  Acked past id ∨ ∃ r ∈ table₀.rows, r.id = id ∧ r.status = .delivered

/-- The notices that an occurrence writes to a connection, whether or not the write succeeds. -/
def noticesOf : System.Occurrence (Thread ι) (World ι) (Call ι) Call.Ans (Outer ι) → List Notice
  | .call _ (.tunnel (.writeMessage _ (.text m))) _ _ => m.notices
  | _ => []

/-- The notices that were written, in order. -/
def writtenNotices (past : History ι) : List Notice := System.collected noticesOf past

/-- The message stands under an id in the table, now or at an earlier point of the run. -/
def Filed (s : World ι) (past : History ι) (id : ℤ) (m : Buffer.Message) : Prop :=
  (∃ r ∈ s.table.rows, r.entry = (id, m)) ∨ ∃ x ∈ past, ∃ r ∈ x.found.table.rows, r.entry = (id, m)

/-- A row with this hash is pending, or one has been settled. -/
def Secured (table₀ : Buffer.Table) (s : World ι) (past : History ι) (hash : List UInt8) : Prop :=
  (∃ r ∈ s.table.rows, r.message.pduHash = hash ∧ r.status = .pending) ∨
    ∃ id m, m.pduHash = hash ∧ Filed s past id m ∧ Settled table₀ past id

/-- `DeleteAllSMS` was called while the message was in its slot. -/
def Wiped (past : History ι) (i : ι) (slot : ℤ) (pdu : List UInt8) : Prop :=
  ∃ t a s, .call (.modem i t) (.modem (.work (.execute .deleteAllSMS))) a s ∈ past ∧
    s.sim i slot = some pdu

/-- The message was in its slot at the start, or has arrived there. -/
def Arrived (sims : ι → Sim) (past : History ι) (i : ι) (slot : ℤ) (pdu : List UInt8) : Prop :=
  sims i slot = some pdu ∨ ∃ s, .env (.arrive i slot pdu) s ∈ past

/-- A worker of the modem has registered under this ICCID. -/
def Registered (past : History ι) (i : ι) (iccid : List UInt8) : Prop :=
  ∃ t a s, .call (.modem i t) (.modem (.work (.register iccid))) a s ∈ past

/-- The replies to `AT+CMGR` that `Execute` has returned to the workers of a modem were the PDUs in
the slots. -/
def Faithful (past : History ι) (i : ι) : Prop :=
  ∀ t slot lines s, .call (.modem i t) (.modem (.work (.execute (.readSMS slot))))
    (.ok lines : Except At.Err (List At.Line)) s ∈ past → faithful (s.sim i slot) lines

/-- The message is what a PDU says that has arrived on a SIM, with the ICCID of this SIM. -/
def Authentic (h : Router.Host) (sims : ι → Sim) (past : History ι) (m : Buffer.Message) : Prop :=
  ∃ i slot pdu d, Arrived sims past i slot pdu ∧ At.decodePDU h.toModem.toHost pdu = .ok d ∧
    m = d.message m.iccid ∧ Registered past i m.iccid

/-- It is, if the modems were faithful. -/
def Vouched (h : Router.Host) (sims : ι → Sim) (past : History ι) (m : Buffer.Message) : Prop :=
  (∀ i, Faithful past i) → Authentic h sims past m

/-- Where a message with this hash is. -/
def Kept (table₀ : Buffer.Table) (s : World ι) (past : History ι) (i : ι) (slot : ℤ)
    (pdu hash : List UInt8) : Prop :=
  s.sim i slot = some pdu ∨ Wiped past i slot pdu ∨ Secured table₀ s past hash

/-- A notice that the gateway may give: it has stored the message under this id. -/
def Genuine (gatewayID : List UInt8) (s : World ι) (past : History ι) (n : Notice) : Prop :=
  n.gatewayID = gatewayID ∧ Filed s past n.bufferID n.message

section Mono

variable {s s' : World ι} {past : History ι}
  {x : System.Occurrence (Thread ι) (World ι) (Call ι) Call.Ans (Outer ι)}
  {table₀ : Buffer.Table} {id : ℤ} {m : Buffer.Message} {hash : List UInt8}
  {added : Buffer.Message → Prop}

theorem Acked.cons (h : Acked past id) : Acked (x :: past) id := by
  obtain ⟨t, n, s, hmem⟩ := h
  exact ⟨t, n, s, List.mem_cons_of_mem _ hmem⟩

theorem Settled.cons (h : Settled table₀ past id) : Settled table₀ (x :: past) id :=
  h.imp_left .cons

theorem Filed.cons (h : Filed s past id m) (hx : x.found = s) : Filed s' (x :: past) id m := by
  right
  rcases h with hrow | ⟨y, hy, hrow⟩
  · exact ⟨x, List.mem_cons_self, by rwa [hx]⟩
  · exact ⟨y, List.mem_cons_of_mem _ hy, hrow⟩

theorem Genuine.cons {gatewayID : List UInt8} {n : Notice} (h : Genuine gatewayID s past n)
    (hx : x.found = s) : Genuine gatewayID s' (x :: past) n :=
  ⟨h.1, h.2.cons hx⟩

theorem Secured.cons (h : Secured table₀ s past hash) (hx : x.found = s)
    (htable : Buffer.Evolves (Acked (x :: past)) added s.table s'.table) :
    Secured table₀ s' (x :: past) hash := by
  rcases h with ⟨r, hr, hhash, hpending⟩ | ⟨id, m, hhash, hfiled, hsettled⟩
  · rcases htable.pending r hr hpending with hacked | ⟨r', hr', hentry, hpending'⟩
    · have hfiled : Filed s past r.id r.message := .inl ⟨r, hr, rfl⟩
      exact .inr ⟨r.id, r.message, hhash, hfiled.cons hx, .inl hacked⟩
    · have hmessage : r'.message = r.message := congrArg Prod.snd hentry
      exact .inl ⟨r', hr', by rwa [hmessage], hpending'⟩
  · exact .inr ⟨id, m, hhash, hfiled.cons hx, hsettled.cons⟩

theorem Wiped.cons {i : ι} {slot : ℤ} {pdu : List UInt8} (h : Wiped past i slot pdu) :
    Wiped (x :: past) i slot pdu := by
  obtain ⟨t, a, s, hmem, hsim⟩ := h
  exact ⟨t, a, s, List.mem_cons_of_mem _ hmem, hsim⟩

theorem Arrived.cons {sims : ι → Sim} {i : ι} {slot : ℤ} {pdu : List UInt8}
    (h : Arrived sims past i slot pdu) : Arrived sims (x :: past) i slot pdu := by
  rcases h with hstart | ⟨s, hmem⟩
  · exact .inl hstart
  · exact .inr ⟨s, List.mem_cons_of_mem _ hmem⟩

theorem Registered.cons {i : ι} {iccid : List UInt8} (h : Registered past i iccid) :
    Registered (x :: past) i iccid := by
  obtain ⟨t, a, s, hmem⟩ := h
  exact ⟨t, a, s, List.mem_cons_of_mem _ hmem⟩

theorem Authentic.cons {h : Router.Host} {sims : ι → Sim} (hm : Authentic h sims past m) :
    Authentic h sims (x :: past) m := by
  obtain ⟨i, slot, pdu, d, harrived, hd, hmessage, hregistered⟩ := hm
  exact ⟨i, slot, pdu, d, harrived.cons, hd, hmessage, hregistered.cons⟩

theorem Faithful.of_cons {i : ι} (h : Faithful (x :: past) i) : Faithful past i :=
  fun t slot lines s hmem => h t slot lines s (List.mem_cons_of_mem _ hmem)

theorem Vouched.cons {h : Router.Host} {sims : ι → Sim} (hm : Vouched h sims past m) :
    Vouched h sims (x :: past) m :=
  fun hfaithful => (hm fun i => (hfaithful i).of_cons).cons

/-- What stands in the table after a step stood there before, or was added. -/
theorem filed_cases (hx : x.found = s) {acked : ℤ → Prop}
    (htable : Buffer.Evolves acked added s.table s'.table) (h : Filed s' (x :: past) id m) :
    Filed s past id m ∨
      s.table.seq < id ∧ added m ∧ ∃ r ∈ s'.table.rows, r.entry = (id, m) := by
  rcases h with ⟨r, hr, hentry⟩ | ⟨y, hy, hrow⟩
  · rcases htable.row r hr with ⟨r₀, hr₀, hentry₀, -⟩ | ⟨hnew, -, hadded⟩
    · exact .inl (.inl ⟨r₀, hr₀, hentry₀.trans hentry⟩)
    · obtain ⟨rfl, rfl⟩ := Prod.mk.inj hentry
      exact .inr ⟨hnew, hadded, r, hr, rfl⟩
  · rcases List.mem_cons.mp hy with rfl | hy
    · rw [hx] at hrow
      exact .inl (.inl hrow)
    · exact .inl (.inr ⟨y, hy, hrow⟩)

end Mono

/-! ### The invariant -/

section Invariant

variable (h : Router.Host) (gatewayID : List UInt8) (sims : ι → Sim) (table₀ : Buffer.Table)

/-- What is known at each point of the receipt of a message. -/
def ReceiptOk (s : World ι) (past : History ι) (i : ι) : Receipt → Prop
  | .idle => True
  | .read slot pdu => Faithful past i → s.sim i slot = some pdu
  | .stored slot pdu m bufferID dup =>
    (Faithful past i → s.sim i slot = some pdu) ∧
      (∃ d, At.decodePDU h.toModem.toHost pdu = .ok d ∧ d.pduHash = m.pduHash) ∧
      Secured table₀ s past m.pduHash ∧ (dup = false → Filed s past bufferID m)
  | .deleted m bufferID dup => dup = false → Filed s past bufferID m

/-- What the goroutines know and what has happened. -/
structure DeliveryInv (s : World ι) (past : History ι)
    (q : Thread ι → Carried × Receipt × Option (List UInt8)) : Prop where
  unique : ∀ id m m', Filed s past id m → Filed s past id m' → m = m'
  le_seq : ∀ id m, Filed s past id m → id ≤ s.table.seq
  delivered : ∀ r ∈ s.table.rows, r.status = .delivered → Settled table₀ past r.id
  ack : ∀ t id, (q (.tunnel t)).1.ack = some id → Acked past id
  outbox : ∀ m ∈ s.tunnel.outbox, ∀ n ∈ m.notices, Genuine gatewayID s past n
  carried : ∀ t, ∀ n ∈ (q (.tunnel t)).1.notices, Genuine gatewayID s past n
  receipt : ∀ i, ReceiptOk h table₀ s past i (q (.modem i .supervisor)).2.1
  registered : ∀ i iccid, (q (.modem i .supervisor)).2.2 = some iccid → Registered past i iccid
  written : ∀ n ∈ writtenNotices past, Genuine gatewayID s past n
  kept : ∀ i slot pdu d, Faithful past i → At.decodePDU h.toModem.toHost pdu = .ok d →
    Arrived sims past i slot pdu → Kept table₀ s past i slot pdu d.pduHash
  arrived : ∀ i slot pdu, s.sim i slot = some pdu → Arrived sims past i slot pdu
  authentic : ∀ id m, Filed s past id m →
    (∃ r ∈ table₀.rows, r.entry = (id, m)) ∨ Vouched h sims past m

variable {h gatewayID sims table₀} {s s' : World ι} {past : History ι}
  {x : System.Occurrence (Thread ι) (World ι) (Call ι) Call.Ans (Outer ι)}
  {q q' : Thread ι → Carried × Receipt × Option (List UInt8)} {added : Buffer.Message → Prop}

theorem deliveryInv_new [DecidableEq ι] :
    DeliveryInv h gatewayID sims table₀ (.new sims table₀) []
      fun _ => (⟨none, []⟩, .idle, none) where
  unique id m m' hm hm' := by
    obtain hm | ⟨x, hx, -⟩ := hm
    · obtain hm' | ⟨x, hx, -⟩ := hm'
      · exact table₀.message_unique hm hm'
      · cases hx
    · cases hx
  le_seq id m hm := by
    obtain hm | ⟨x, hx, -⟩ := hm
    · exact table₀.le_seq_of_entry hm
    · cases hx
  delivered r hr hstatus := .inr ⟨r, hr, rfl, hstatus⟩
  ack _ _ hack := nomatch hack
  outbox _ hm := nomatch hm
  carried _ _ hn := nomatch hn
  receipt _ := trivial
  registered _ _ hq := nomatch hq
  written _ hn := nomatch hn
  kept i slot pdu d _ _ harrived := by
    rcases harrived with hsim | ⟨s, hmem⟩
    · exact .inl hsim
    · cases hmem
  arrived i slot pdu hslot := .inl hslot
  authentic id m hm := by
    obtain hrow | ⟨x, hx, -⟩ := hm
    · exact .inl hrow
    · cases hx

theorem ReceiptOk.cons {i : ι} {r : Receipt} (hr : ReceiptOk h table₀ s past i r)
    (hx : x.found = s) (htable : Buffer.Evolves (Acked (x :: past)) added s.table s'.table)
    (hsim : ∀ slot pdu, s.sim i slot = some pdu → s'.sim i slot = some pdu) :
    ReceiptOk h table₀ s' (x :: past) i r := by
  cases r with
  | idle => trivial
  | read slot pdu => exact fun hfaithful => hsim slot pdu (hr hfaithful.of_cons)
  | stored slot pdu m bufferID dup =>
    obtain ⟨hslot, hdecode, hsecured, hfiled⟩ := hr
    exact ⟨fun hfaithful => hsim slot pdu (hslot hfaithful.of_cons), hdecode,
      hsecured.cons hx htable, fun hdup => (hfiled hdup).cons hx⟩
  | deleted m bufferID dup => exact fun hdup => (hr hdup).cons hx

/-- What is to be shown of a step. -/
theorem DeliveryInv.step (hinv : DeliveryInv h gatewayID sims table₀ s past q) (hx : x.found = s)
    (htable : Buffer.Evolves (Acked (x :: past)) (Vouched h sims (x :: past)) s.table s'.table)
    (houtbox : ∀ m ∈ s'.tunnel.outbox, m ∈ s.tunnel.outbox ∨
      ∀ n ∈ m.notices, Genuine gatewayID s' (x :: past) n)
    (hack : ∀ t id, (q' (.tunnel t)).1.ack = some id →
      (q (.tunnel t)).1.ack = some id ∨ Acked (x :: past) id)
    (hcarried : ∀ t, ∀ n ∈ (q' (.tunnel t)).1.notices, n ∈ (q (.tunnel t)).1.notices ∨
      Genuine gatewayID s' (x :: past) n)
    (hreceipt : ∀ i, ReceiptOk h table₀ s' (x :: past) i (q' (.modem i .supervisor)).2.1)
    (hregistered : ∀ i iccid, (q' (.modem i .supervisor)).2.2 = some iccid →
      (q (.modem i .supervisor)).2.2 = some iccid ∨ Registered (x :: past) i iccid)
    (hwritten : ∀ n ∈ noticesOf x, Genuine gatewayID s past n)
    (hkept : ∀ i slot pdu d, Faithful (x :: past) i → At.decodePDU h.toModem.toHost pdu = .ok d →
      Arrived sims (x :: past) i slot pdu → Kept table₀ s' (x :: past) i slot pdu d.pduHash)
    (harrived : ∀ i slot pdu, s'.sim i slot = some pdu → s.sim i slot = some pdu ∨
      Arrived sims (x :: past) i slot pdu) :
    DeliveryInv h gatewayID sims table₀ s' (x :: past) q' where
  unique id m m' hm hm' := by
    rcases filed_cases hx htable hm with hm | ⟨hnew, -, hrow⟩
    · rcases filed_cases hx htable hm' with hm' | ⟨hnew, -, -⟩
      · exact hinv.unique id m m' hm hm'
      · exact absurd (hinv.le_seq id m hm) (not_le.mpr hnew)
    · rcases filed_cases hx htable hm' with hm' | ⟨-, -, hrow'⟩
      · exact absurd (hinv.le_seq id m' hm') (not_le.mpr hnew)
      · -- both are the new row
        exact s'.table.message_unique hrow hrow'
  le_seq id m hm := by
    rcases filed_cases hx htable hm with hm | ⟨-, -, hrow⟩
    · exact (hinv.le_seq id m hm).trans htable.seq_le
    · exact s'.table.le_seq_of_entry hrow
  delivered r hr hstatus := by
    rcases htable.row r hr with ⟨r₀, hr₀, hentry, hold⟩ | ⟨-, hpending, -⟩
    · have hid : r₀.id = r.id := congrArg Prod.fst hentry
      rcases hold hstatus with hstatus | hacked
      · rw [← hid]
        exact (hinv.delivered r₀ hr₀ hstatus).cons
      · exact .inl hacked
    · rw [hpending] at hstatus
      cases hstatus
  ack t id hq := by
    rcases hack t id hq with hq | hacked
    · exact (hinv.ack t id hq).cons
    · exact hacked
  outbox m hm := by
    rcases houtbox m hm with hm | hnew
    · exact fun n hn => (hinv.outbox m hm n hn).cons hx
    · exact hnew
  carried t n hn := by
    rcases hcarried t n hn with hn | hnew
    · exact (hinv.carried t n hn).cons hx
    · exact hnew
  receipt := hreceipt
  registered i iccid hq := by
    rcases hregistered i iccid hq with hq | hnew
    · exact (hinv.registered i iccid hq).cons
    · exact hnew
  written n hn := by
    rcases List.mem_append.mp hn with hn | hn
    · exact (hinv.written n hn).cons hx
    · exact (hwritten n hn).cons hx
  kept := hkept
  arrived i slot pdu hslot := by
    rcases harrived i slot pdu hslot with hslot | hnew
    · exact (hinv.arrived i slot pdu hslot).cons
    · exact hnew
  authentic id m hm := by
    rcases filed_cases hx htable hm with hm | ⟨-, hadded, -⟩
    · exact (hinv.authentic id m hm).imp_right .cons
    · exact .inr hadded

/-- The messages stay where they are, or move on, in a step that takes none from the SIMs. -/
theorem DeliveryInv.kept_cons (hinv : DeliveryInv h gatewayID sims table₀ s past q)
    (hx : x.found = s) (htable : Buffer.Evolves (Acked (x :: past)) added s.table s'.table)
    (hsim : ∀ i slot pdu, s.sim i slot = some pdu → s'.sim i slot = some pdu)
    (harrive : ∀ i slot pdu s₀, x ≠ .env (.arrive i slot pdu) s₀) (i : ι) (slot : ℤ)
    (pdu : List UInt8) (d : At.DecodedSMS) (hfaithful : Faithful (x :: past) i)
    (hd : At.decodePDU h.toModem.toHost pdu = .ok d)
    (harrived : Arrived sims (x :: past) i slot pdu) :
    Kept table₀ s' (x :: past) i slot pdu d.pduHash := by
  have harrived : Arrived sims past i slot pdu := by
    rcases harrived with hstart | ⟨s₀, hmem⟩
    · exact .inl hstart
    · rcases List.mem_cons.mp hmem with heq | hmem
      · exact absurd heq.symm (harrive i slot pdu s₀)
      · exact .inr ⟨s₀, hmem⟩
  rcases hinv.kept i slot pdu d hfaithful.of_cons hd harrived with hslot | hwiped | hsecured
  · exact .inl (hsim i slot pdu hslot)
  · exact .inr (.inl hwiped.cons)
  · exact .inr (.inr (hsecured.cons hx htable))

end Invariant

/-! ### What a call of the tunnel does -/

section Steps

variable {h : Router.Host} {cfg : ManagerConfig} {w : ι → Worker}
  {sims : ι → Sim} {table₀ : Buffer.Table} {s s' : World ι} {past : History ι} {ch : Chance}
  {q : Thread ι → Carried × Receipt × Option (List UInt8)} {added : Buffer.Message → Prop}

/-- The buffer evolves in every call of the tunnel. -/
theorem evolves_tunnel {u : Tunnel.Thread} {ms : ℤ} {c : Tunnel.Call} {a : c.Ans}
    {tunnel tunnel' : Tunnel.World} {acked : ℤ → Prop} {k : Carried}
    (hallow : (carryProtocol cfg).allows k c) (hack : ∀ id, k.ack = some id → acked id)
    (hexec : tunnel.exec u ms c a = some tunnel') :
    Buffer.Evolves acked added tunnel.table tunnel'.table := by
  rw [table_of_exec hexec]
  cases c with
  | markDelivered id =>
    simp only [Call.tableAfter]
    split_ifs
    · exact .markDelivered ms (hack id hallow) _
    · exact .refl _
  | purge => exact .purge ms _
  | _ => exact .refl _

/-- What a call of the tunnel leaves in the outbox. -/
theorem outbox_tunnel {u : Tunnel.Thread} {ms : ℤ} {c : Tunnel.Call} {a : c.Ans}
    {tunnel tunnel' : Tunnel.World} {k : Carried} (hallow : (carryProtocol cfg).allows k c)
    (hexec : tunnel.exec u ms c a = some tunnel') (m : Outbound) (hm : m ∈ tunnel'.outbox) :
    m ∈ tunnel.outbox ∨ m.notices = [] := by
  have hmem : m ∈ tunnel.outbox ++ acceptedBy (.call u c a tunnel) := by
    rw [← outbox_of_exec hexec]
    exact List.mem_append_right _ hm
  rcases List.mem_append.mp hmem with hold | hnew
  · exact .inl hold
  · right
    cases c with
    | push m' =>
      simp only [acceptedBy] at hnew
      split_ifs at hnew
      · rw [List.mem_singleton.mp hnew]
        exact hallow
      · cases hnew
    | _ => cases hnew

/-- What a goroutine of the tunnel has read comes from the buffer or the outbox. -/
theorem carried_tunnel {gatewayID : List UInt8} (hcfg : cfg.gatewayID = gatewayID)
    {u : Tunnel.Thread} {c : Tunnel.Call} {a : c.Ans} {tunnel' : Tunnel.World} {k : Carried}
    (houtbox : ∀ m ∈ s.tunnel.outbox, ∀ n ∈ m.notices, Genuine gatewayID s past n)
    (hexec : s.tunnel.exec u ch.ms c a = some tunnel') (n : Notice)
    (hn : n ∈ ((carryProtocol cfg).next k c a).notices) :
    n ∈ k.notices ∨ Genuine gatewayID s past n := by
  cases c with
  | pendingRows =>
    cases a with
    | none => exact .inl hn
    | some rows =>
      obtain ⟨row, hrow, rfl⟩ := List.mem_map.mp hn
      rw [eq_pendingRows_of_exec hexec, Buffer.pendingRows_eq] at hrow
      obtain ⟨r, hr, rfl⟩ := List.mem_map.mp hrow
      exact .inr ⟨hcfg, .inl ⟨r, (List.mem_filter.mp hr).1, rfl⟩⟩
  | select k' =>
    cases a with
    | ctxDone => exact .inl hn
    | event e =>
      cases e with
      | outbox m =>
        -- the event was in the outbox
        have hmem : m ∈ s.tunnel.outbox := by
          have heq := outbox_of_exec hexec
          have hnone : acceptedBy (.call u (.select k') (.event (.outbox m)) s.tunnel) = [] := rfl
          rw [hnone, List.append_nil] at heq
          rw [← heq]
          exact List.mem_cons_self
        exact .inr (houtbox m hmem n hn)
      | ping | heartbeat => exact .inl hn
  | readMessage k' =>
    match a, hn with
    | none, hn => exact .inl hn
    | some .malformed, hn => exact .inl hn
    | some .unknown, hn => exact .inl hn
    | some (.task _), hn => exact .inl hn
    | some (.smsDeliveredAck _), hn => exact .inl hn
  | _ => exact .inl hn

theorem ack_tunnel {u : Tunnel.Thread} {c : Tunnel.Call} {a : c.Ans} {k : Carried} {id : ℤ}
    (hack : ((carryProtocol cfg).next k c a).ack = some id) :
    k.ack = some id ∨ Acked (.call (.tunnel u) (.tunnel c) a s :: past) id := by
  cases c with
  | readMessage n =>
    match a, hack with
    | none, hack => exact .inl hack
    | some .malformed, hack => exact .inl hack
    | some .unknown, hack => exact .inl hack
    | some (.task _), hack => exact .inl hack
    | some (.smsDeliveredAck id'), hack =>
      cases hack
      exact .inr ⟨u, n, s, List.mem_cons_self⟩
  | pendingRows =>
    cases a with
    | none => exact .inl hack
    | some rows => exact .inl hack
  | select n =>
    cases a with
    | ctxDone => exact .inl hack
    | event e =>
      cases e with
      | outbox m => exact .inl hack
      | ping | heartbeat => exact .inl hack
  | _ => exact .inl hack

/-! ### What a call of a worker does -/

/-- The steps that change nothing of the mail. -/
theorem DeliveryInv.same {x : System.Occurrence (Thread ι) (World ι) (Call ι) Call.Ans (Outer ι)}
    {q' : Thread ι → Carried × Receipt × Option (List UInt8)}
    (hinv : DeliveryInv h cfg.gatewayID sims table₀ s past q) (hx : x.found = s)
    (hsame : SameMail s s') (hq : q' = q)
    (hwrite : noticesOf x = [])
    (harrive : ∀ i slot pdu s₀, x ≠ .env (.arrive i slot pdu) s₀) :
    DeliveryInv h cfg.gatewayID sims table₀ s' (x :: past) q' := by
  subst hq
  have htable : Buffer.Evolves (Acked (x :: past)) (Vouched h sims (x :: past)) s.table
      s'.table := by
    rw [hsame.table]
    exact .refl _
  have hsim : ∀ i slot pdu, s.sim i slot = some pdu → s'.sim i slot = some pdu := by
    intro i slot pdu hslot
    rwa [hsame.sim]
  refine hinv.step hx htable ?_ ?_ ?_ ?_ ?_ ?_ ?_ ?_
  · rw [hsame.outbox]
    exact fun m hm => .inl hm
  · exact fun t id hid => .inl hid
  · exact fun t n hn => .inl hn
  · exact fun i => (hinv.receipt i).cons hx htable (hsim i)
  · exact fun i iccid hq => .inl hq
  · rw [hwrite]
    exact fun n hn => absurd hn List.not_mem_nil
  · exact hinv.kept_cons hx htable hsim harrive
  · intro i slot pdu hslot
    rw [hsame.sim] at hslot
    exact .inl hslot

/-- What an insert that succeeds leaves: the hash is secured, and the message filed. -/
theorem secured_of_insert {m : Buffer.Message} {id : ℤ} {dup : Bool} {x : System.Occurrence
      (Thread ι) (World ι) (Call ι) Call.Ans (Outer ι)}
    (hinv : DeliveryInv h cfg.gatewayID sims table₀ s past q)
    (hinsert : Inserts ch s.table s'.table m (.ok (id, dup))) :
    Secured table₀ s' (x :: past) m.pduHash ∧ (dup = false → Filed s' (x :: past) id m) := by
  obtain ⟨hok, htable⟩ := hinsert
  obtain ⟨⟨r, hr, hhash⟩, hrow⟩ := Buffer.row_of_insert_ok hok.symm
  rw [← htable] at hr hrow
  refine ⟨?_, fun hdup => .inl (hrow hdup)⟩
  cases hstatus : r.status with
  | pending => exact .inl ⟨r, hr, hhash, hstatus⟩
  | delivered =>
    -- the row was there before, and was delivered
    have hevolves : Buffer.Evolves (fun _ => False) (fun _ => True) s.table s'.table := by
      rw [htable]
      exact .insert ch.fault ch.sec trivial s.table
    rcases hevolves.row r hr with ⟨r₀, hr₀, hentry, hold⟩ | ⟨-, hpending, -⟩
    · have hid : r₀.id = r.id := congrArg Prod.fst hentry
      rcases hold hstatus with hstatus | hfalse
      · refine .inr ⟨r.id, r.message, hhash, .inl ⟨r, hr, rfl⟩, ?_⟩
        rw [← hid]
        exact (hinv.delivered r₀ hr₀ hstatus).cons
      · exact hfalse.elim
    · rw [hpending] at hstatus
      cases hstatus

/-- What the receipt of a message has come to after a call of a worker. -/
theorem receiptOk_next {i : ι} {e : Modem.Call} {a : e.Ans}
    (hinv : DeliveryInv h cfg.gatewayID sims table₀ s past q)
    (hallow : (receiptProtocol h.toModem (wired cfg (w i))).allows
      (q (.modem i .supervisor)).2.1 e)
    (hevolves : Buffer.Evolves
      (Acked (.call (.modem i .supervisor) (.modem (.work e)) a s :: past)) added s.table s'.table)
    (htable : TableAfter ch s.table s'.table (.work e) a)
    (hsim : (s.sim i).exec ch e a = some (s'.sim i)) :
    ReceiptOk h table₀ s' (.call (.modem i .supervisor) (.modem (.work e)) a s :: past) i
      ((receiptProtocol h.toModem (wired cfg (w i))).next (q (.modem i .supervisor)).2.1 e a) := by
  have hold := hinv.receipt i
  generalize (q (.modem i .supervisor)).2.1 = r at hallow hold
  have hstay : s'.sim i = s.sim i → ReceiptOk h table₀ s'
      (.call (.modem i .supervisor) (.modem (.work e)) a s :: past) i r := by
    intro hsame
    refine hold.cons rfl hevolves fun slot pdu hslot => ?_
    rwa [hsame]
  cases e with
  | select => trivial
  | insert m =>
    have hsame : s'.sim i = s.sim i := (Option.some.inj hsim).symm
    obtain ⟨slot, pdu, d, rfl, hd, hm⟩ := hallow
    cases a with
    | error e => trivial
    | ok p =>
      obtain ⟨bufferID, dup⟩ := p
      obtain ⟨hsecured, hfiled⟩ := secured_of_insert hinv htable
      refine ⟨fun hfaithful => ?_, ⟨d, hd, (congrArg Buffer.Message.pduHash hm).symm⟩, hsecured,
        hfiled⟩
      rw [hsame]
      exact hold hfaithful.of_cons
  | execute c =>
    cases c with
    | readSMS slot =>
      cases a with
      | error e => trivial
      | ok lines =>
        have hsame : s'.sim i = s.sim i := (Option.some.inj hsim).symm
        change ReceiptOk h table₀ s' (_ :: past) i (.ofRead slot (At.pduOf slot lines))
        cases hpdu : At.pduOf slot lines with
        | error e => trivial
        | ok pdu =>
          intro hfaithful
          rw [hsame]
          exact eq_of_faithful (hfaithful _ slot lines s List.mem_cons_self) hpdu
    | deleteSMS slot =>
      rcases hallow with ⟨pdu, err, rfl, -⟩ | ⟨pdu, m, bufferID, dup, rfl⟩
      · trivial
      · exact fun hdup => (hold.2.2.2 hdup).cons rfl
    | deleteAllSMS => trivial
    | _ => exact hstay (Option.some.inj hsim).symm
  | _ => exact hstay (Option.some.inj hsim).symm

/-- A message is taken from its SIM by `DeleteAllSMS`, or when it is secured. -/
theorem kept_of_work {i : ι} {e : Modem.Call} {a : e.Ans}
    (hinv : DeliveryInv h cfg.gatewayID sims table₀ s past q)
    (hallow : (receiptProtocol h.toModem (wired cfg (w i))).allows
      (q (.modem i .supervisor)).2.1 e)
    (hevolves : Buffer.Evolves
      (Acked (.call (.modem i .supervisor) (.modem (.work e)) a s :: past)) added s.table s'.table)
    (hsim : (s.sim i).exec ch e a = some (s'.sim i)) {slot : ℤ} {pdu : List UInt8}
    {d : At.DecodedSMS}
    (hfaithful : Faithful (.call (.modem i .supervisor) (.modem (.work e)) a s :: past) i)
    (hd : At.decodePDU h.toModem.toHost pdu = .ok d)
    (hslot : s.sim i slot = some pdu) :
    Kept table₀ s' (.call (.modem i .supervisor) (.modem (.work e)) a s :: past) i slot pdu
      d.pduHash := by
  have hstay : s'.sim i = s.sim i → Kept table₀ s'
      (.call (.modem i .supervisor) (.modem (.work e)) a s :: past) i slot pdu d.pduHash := by
    intro hsame
    left
    rwa [hsame]
  have hold := hinv.receipt i
  cases e with
  | execute c =>
    cases c with
    | deleteSMS j =>
      by_cases hj : slot = j
      · subst hj
        rcases hallow with ⟨pdu', err, hq, herr⟩ | ⟨pdu', m, bufferID, dup, hq⟩
        · -- what is deleted unread does not decode
          rw [hq] at hold
          cases hslot.symm.trans (hold hfaithful.of_cons)
          rw [hd] at herr
          cases herr
        · rw [hq] at hold
          obtain ⟨hslot', ⟨d', hd', hhash⟩, hsecured, -⟩ := hold
          cases hslot.symm.trans (hslot' hfaithful.of_cons)
          cases hd.symm.trans hd'
          rw [← hhash] at hsecured
          exact .inr (.inr (hsecured.cons rfl hevolves))
      · left
        rw [← Option.some.inj hsim]
        split_ifs
        · rwa [Function.update_of_ne hj]
        · exact hslot
    | deleteAllSMS => exact .inr (.inl ⟨.supervisor, a, s, List.mem_cons_self, hslot⟩)
    | _ => exact hstay (Option.some.inj hsim).symm
  | _ => exact hstay (Option.some.inj hsim).symm

/-- What a worker pushes is genuine. -/
theorem genuine_of_pushed {i : ι} {e : Modem.Call}
    (hinv : DeliveryInv h cfg.gatewayID sims table₀ s past q)
    (hallow : (receiptProtocol h.toModem (wired cfg (w i))).allows
      (q (.modem i .supervisor)).2.1 e) (m : Outbound) (hm : m ∈ pushed (.work e)) (n : Notice)
    (hn : n ∈ m.notices) : Genuine cfg.gatewayID s past n := by
  cases e with
  | event e =>
    cases List.mem_singleton.mp hm
    cases e with
    | modemAlert => cases hn
    | smsReceived e =>
      cases List.mem_singleton.mp hn
      obtain ⟨hq, hid⟩ := hallow
      have hold := hinv.receipt i
      rw [hq] at hold
      exact ⟨hid, hold rfl⟩
  | ack ackFn ack =>
    cases List.mem_singleton.mp hm
    cases hn
  | _ => cases hm

theorem evolves_modem {c : SupervisorCall} {a : c.Ans} {table table' : Buffer.Table}
    (htable : TableAfter ch table table' c a) (acked : ℤ → Prop)
    (hadded : ∀ m, c = .work (.insert m) → added m) : Buffer.Evolves acked added table table' := by
  cases c with
  | work e =>
    cases e with
    | insert m =>
      rw [htable.2]
      exact .insert ch.fault ch.sec (hadded m rfl) table
    | _ =>
      cases htable
      exact .refl _
  | _ =>
    cases htable
    exact .refl _

/-! ### The steps -/

variable [DecidableEq ι]

/-- A call of the tunnel keeps the invariant. -/
theorem deliveryInv_tunnel {u : Tunnel.Thread} {c : Tunnel.Call} {a : c.Ans}
    {tunnel : Tunnel.World} (hinv : DeliveryInv h cfg.gatewayID sims table₀ s past q)
    (hallow : (carryProtocol cfg).allows (q (.tunnel u)).1 c)
    (hexec : s.tunnel.exec u ch.ms c a = some tunnel) :
    DeliveryInv h cfg.gatewayID sims table₀ { s with tunnel }
      (.call (.tunnel u) (.tunnel c) a s :: past)
      (Function.update q (.tunnel u)
        ((carryProtocol cfg).next (q (.tunnel u)).1 c a, (q (.tunnel u)).2)) := by
  have htable : Buffer.Evolves (Acked (.call (.tunnel u) (.tunnel c) a s :: past))
      (Vouched h sims (.call (.tunnel u) (.tunnel c) a s :: past)) s.table tunnel.table :=
    evolves_tunnel hallow (fun id hid => (hinv.ack u id hid).cons) hexec
  refine hinv.step rfl htable ?_ ?_ ?_ ?_ ?_ ?_ ?_ fun i slot pdu hslot => .inl hslot
  · intro m hm
    refine (outbox_tunnel hallow hexec m hm).imp_right fun hnone => ?_
    rw [hnone]
    exact fun _ hn => absurd hn List.not_mem_nil
  · intro v id hid
    by_cases hv : v = u
    · subst hv
      rw [Function.update_self] at hid
      exact ack_tunnel hid
    · rw [Function.update_of_ne (by simpa using hv)] at hid
      exact .inl hid
  · intro v n hn
    by_cases hv : v = u
    · subst hv
      rw [Function.update_self] at hn
      exact (carried_tunnel rfl hinv.outbox hexec n hn).imp_right fun hnew => hnew.cons rfl
    · rw [Function.update_of_ne (by simpa using hv)] at hn
      exact .inl hn
  · intro i
    rw [Function.update_of_ne (by simp)]
    exact (hinv.receipt i).cons rfl htable fun _ _ hslot => hslot
  · intro i iccid hq
    rw [Function.update_of_ne (by simp)] at hq
    exact .inl hq
  · intro n hn
    cases c with
    | writeMessage k f =>
      cases f with
      | text m => exact hinv.carried u n (hallow hn)
      | _ => cases hn
    | _ => cases hn
  · exact hinv.kept_cons rfl htable (fun _ _ _ hslot => hslot) nofun

/-- What is to be shown of a call of a supervisor, a worker or a watchdog. -/
theorem DeliveryInv.modem {i : ι} {u : SupervisorThread} {c : SupervisorCall} {a : c.Ans}
    {m : SupervisorWorld Sim} {r : Receipt × Option (List UInt8)}
    (hinv : DeliveryInv h cfg.gatewayID sims table₀ s past q)
    (hshared : (s.setModem i m).shared ch i c a = some s')
    (hpushed : ∀ y ∈ pushed c, ∀ n ∈ y.notices, Genuine cfg.gatewayID s past n)
    (hadded : ∀ y, c = .work (.insert y) → Vouched h sims past y)
    (hreceipt : Buffer.Evolves (Acked (.call (.modem i u) (.modem c) a s :: past))
      (Vouched h sims (.call (.modem i u) (.modem c) a s :: past)) s.table s'.table →
      ReceiptOk h table₀ s' (.call (.modem i u) (.modem c) a s :: past) i
        (Function.update q (.modem i u) ((q (.modem i u)).1, r) (.modem i .supervisor)).2.1)
    (hregistered : ∀ iccid, r.2 = some iccid → (q (.modem i u)).2.2 = some iccid ∨
      Registered (.call (.modem i u) (.modem c) a s :: past) i iccid)
    (hkept : Buffer.Evolves (Acked (.call (.modem i u) (.modem c) a s :: past))
      (Vouched h sims (.call (.modem i u) (.modem c) a s :: past)) s.table s'.table →
      ∀ slot pdu d, Faithful (.call (.modem i u) (.modem c) a s :: past) i →
        At.decodePDU h.toModem.toHost pdu = .ok d → s.sim i slot = some pdu →
        Kept table₀ s' (.call (.modem i u) (.modem c) a s :: past) i slot pdu d.pduHash)
    (hless : ∀ slot pdu, s'.sim i slot = some pdu → s.sim i slot = some pdu) :
    DeliveryInv h cfg.gatewayID sims table₀ s' (.call (.modem i u) (.modem c) a s :: past)
      (Function.update q (.modem i u) ((q (.modem i u)).1, r)) := by
  obtain ⟨hmodems, htable, houtbox⟩ := shared_eq hshared
  have hevolves : Buffer.Evolves (Acked (.call (.modem i u) (.modem c) a s :: past))
      (Vouched h sims (.call (.modem i u) (.modem c) a s :: past)) s.table s'.table :=
    evolves_modem htable _ fun y hy => (hadded y hy).cons
  have hother : ∀ j, j ≠ i → s'.sim j = s.sim j := by
    intro j hj
    simp only [World.sim, hmodems, World.setModem, Function.update_of_ne hj]
  have hcarried : ∀ v, (Function.update q (.modem i u) ((q (.modem i u)).1, r)) (.tunnel v)
      = q (.tunnel v) := fun v => Function.update_of_ne (by simp) _ _
  refine hinv.step rfl hevolves ?_ ?_ ?_ ?_ ?_ ?_ ?_ ?_
  · intro y hy
    refine (houtbox y hy).imp_right fun hnew n hn => ?_
    exact (hpushed y hnew n hn).cons rfl
  · intro v id hid
    rw [hcarried] at hid
    exact .inl hid
  · intro v n hn
    rw [hcarried] at hn
    exact .inl hn
  · intro j
    by_cases hj : j = i
    · subst hj
      exact hreceipt hevolves
    · rw [Function.update_of_ne (by simpa using fun heq => absurd heq hj)]
      refine (hinv.receipt j).cons rfl hevolves fun slot pdu hslot => ?_
      rwa [hother j hj]
  · intro j iccid hq
    by_cases hj : (Thread.modem j .supervisor : Thread ι) = .modem i u
    · cases hj
      rw [Function.update_self] at hq
      exact hregistered iccid hq
    · rw [Function.update_of_ne hj] at hq
      exact .inl hq
  · exact fun n hn => absurd hn List.not_mem_nil
  · intro j slot pdu d hfaithful hd harrived
    have harrived : Arrived sims past j slot pdu := by
      rcases harrived with hstart | ⟨s₀, hmem⟩
      · exact .inl hstart
      · refine .inr ⟨s₀, (List.mem_cons.mp hmem).resolve_left fun heq => ?_⟩
        cases heq
    rcases hinv.kept j slot pdu d hfaithful.of_cons hd harrived with hslot | hwiped | hsecured
    · by_cases hj : j = i
      · subst hj
        exact hkept hevolves slot pdu d hfaithful hd hslot
      · left
        rwa [hother j hj]
    · exact .inr (.inl hwiped.cons)
    · exact .inr (.inr (hsecured.cons rfl hevolves))
  · intro j slot pdu hslot
    by_cases hj : j = i
    · subst hj
      exact .inl (hless slot pdu hslot)
    · rw [hother j hj] at hslot
      exact .inl hslot

/-- The calls of a worker only take messages from its SIM. -/
theorem Sim.of_exec {sim sim' : Sim} {e : Modem.Call} {a : e.Ans}
    (hexec : sim.exec ch e a = some sim') {slot : ℤ} {pdu : List UInt8}
    (hslot : sim' slot = some pdu) : sim slot = some pdu := by
  have hsame : some sim = some sim' → sim slot = some pdu := by
    intro heq
    cases heq
    exact hslot
  cases e with
  | execute c =>
    cases c with
    | deleteSMS j =>
      cases hexec
      split_ifs at hslot
      · by_cases hj : slot = j
        · rw [hj, Function.update_self] at hslot
          cases hslot
        · rwa [Function.update_of_ne hj] at hslot
      · exact hslot
    | deleteAllSMS =>
      cases hexec
      dsimp only at hslot
      split_ifs at hslot
      exact hslot
    | _ => exact hsame hexec
  | _ => exact hsame hexec

/-- A call of a worker keeps the invariant. -/
theorem deliveryInv_work {i : ι} {e : Modem.Call} {a : e.Ans} {m : SupervisorWorld Sim}
    (hinv : DeliveryInv h cfg.gatewayID sims table₀ s past q)
    (hallow : ((receiptProtocol h.toModem (wired cfg (w i))).prod identityProtocol).allows
      (q (.modem i .supervisor)).2 e)
    (hexec : (s.modems i).exec Sim.exec .supervisor ch (.work e) a = some m)
    (hshared : (s.setModem i m).shared ch i (.work e) a = some s') :
    DeliveryInv h cfg.gatewayID sims table₀ s'
      (.call (.modem i .supervisor) (.modem (.work e)) a s :: past)
      (Function.update q (.modem i .supervisor) ((q (.modem i .supervisor)).1,
        ((receiptProtocol h.toModem (wired cfg (w i))).prod identityProtocol).next
          (q (.modem i .supervisor)).2 e a)) := by
  obtain ⟨hreceipt, hidentity⟩ := hallow
  obtain ⟨hmodems, htable, -⟩ := shared_eq hshared
  have hsim : (s.sim i).exec ch e a = some (s'.sim i) := by
    have hworld := sim_of_exec hexec
    simp only [World.sim, hmodems, World.setModem, Function.update_self]
    exact hworld
  refine hinv.modem hshared (genuine_of_pushed hinv hreceipt) ?_ ?_ ?_ ?_ ?_
  · -- what is inserted was read from the SIM
    rintro y ⟨⟩ hfaithful
    obtain ⟨slot, pdu, d, hq, hd, hy⟩ := hreceipt
    have hread := hinv.receipt i
    rw [hq] at hread
    exact ⟨i, slot, pdu, d, hinv.arrived i slot pdu (hread (hfaithful i)), hd, hy,
      hinv.registered i y.iccid hidentity⟩
  · intro hevolves
    rw [Function.update_self]
    exact receiptOk_next hinv hreceipt hevolves htable hsim
  · intro iccid hq
    cases e with
    | register iccid' =>
      cases hq
      exact .inr ⟨.supervisor, a, s, List.mem_cons_self⟩
    | _ => exact .inl hq
  · intro hevolves slot pdu d hfaithful hd hslot
    exact kept_of_work hinv hreceipt hevolves hsim hfaithful hd hslot
  · exact fun slot pdu hslot => Sim.of_exec hsim hslot

/-- So does a call of the supervisor itself, or of a watchdog. -/
theorem deliveryInv_other {i : ι} {u : SupervisorThread} {c : SupervisorCall} {a : c.Ans}
    {m : SupervisorWorld Sim} {r : Receipt × Option (List UInt8)}
    (hinv : DeliveryInv h cfg.gatewayID sims table₀ s past q)
    (hc : ∀ e, c = .work e → e.ofWatchdog) (hr : r = (q (.modem i u)).2 ∨ r = (.idle, none))
    (hexec : (s.modems i).exec Sim.exec u ch c a = some m)
    (hshared : (s.setModem i m).shared ch i c a = some s') :
    DeliveryInv h cfg.gatewayID sims table₀ s' (.call (.modem i u) (.modem c) a s :: past)
      (Function.update q (.modem i u) ((q (.modem i u)).1, r)) := by
  obtain ⟨hmodems, -, -⟩ := shared_eq hshared
  have hsim : s'.sim i = s.sim i := by
    simp only [World.sim, hmodems, World.setModem, Function.update_self]
    exact sim_of_exec_other hc hexec
  refine hinv.modem hshared ?_ ?_ ?_ ?_ ?_ ?_
  · intro y hy
    cases c with
    | work e =>
      have he := hc e rfl
      cases e with
      | event | ack => cases he
      | _ => cases hy
    | _ => cases hy
  · rintro y rfl
    cases hc _ rfl
  · intro hevolves
    have hold : ReceiptOk h table₀ s' (.call (.modem i u) (.modem c) a s :: past) i
        (q (.modem i .supervisor)).2.1 := by
      refine (hinv.receipt i).cons rfl hevolves fun slot pdu hslot => ?_
      rwa [hsim]
    by_cases hu : SupervisorThread.supervisor = u
    · subst hu
      rw [Function.update_self]
      rcases hr with rfl | rfl
      · exact hold
      · trivial
    · rw [Function.update_of_ne (by simpa using hu)]
      exact hold
  · intro iccid hq
    rcases hr with rfl | rfl
    · exact .inl hq
    · cases hq
  · intro hevolves slot pdu d _ _ hslot
    left
    rwa [hsim]
  · intro slot pdu hslot
    rwa [hsim] at hslot

/-! ### What happens outside -/

/-- A message arrives in an empty slot. -/
theorem sim_of_arrive {i : ι} {slot : ℤ} {pdu : List UInt8}
    (hstep : Outer.step s (.arrive i slot pdu) = some s') (j : ι) (slot' : ℤ) :
    s'.sim j slot' = if j = i ∧ slot' = slot then some pdu else s.sim j slot' := by
  obtain ⟨-, hs⟩ := Option.ite_none_right_eq_some.mp hstep
  cases hs
  rw [sim_setWorker]
  by_cases hj : j = i
  · subst hj
    simp only [if_pos, Function.update_apply, true_and]
  · rw [if_neg hj, if_neg fun h => hj h.1]

theorem deliveryInv_arrive {i : ι} {slot : ℤ} {pdu : List UInt8}
    (hinv : DeliveryInv h cfg.gatewayID sims table₀ s past q)
    (hstep : Outer.step s (.arrive i slot pdu) = some s') :
    DeliveryInv h cfg.gatewayID sims table₀ s' (.env (.arrive i slot pdu) s :: past) q := by
  have hslots := sim_of_arrive hstep
  obtain ⟨hempty, hs⟩ := Option.ite_none_right_eq_some.mp hstep
  have hsim : ∀ j slot' pdu', s.sim j slot' = some pdu' → s'.sim j slot' = some pdu' := by
    intro j slot' pdu' hslot
    rw [hslots, if_neg, hslot]
    rintro ⟨rfl, rfl⟩
    rw [hempty] at hslot
    cases hslot
  have hothers : ∀ j slot' pdu', s'.sim j slot' = some pdu' → s.sim j slot' = some pdu' ∨
      Arrived sims (.env (.arrive i slot pdu) s :: past) j slot' pdu' := by
    intro j slot' pdu' hslot
    rw [hslots] at hslot
    split_ifs at hslot with hnew
    · obtain ⟨rfl, rfl⟩ := hnew
      cases hslot
      exact .inr (.inr ⟨s, List.mem_cons_self⟩)
    · exact .inl hslot
  cases hs
  have htable : Buffer.Evolves (Acked (.env (.arrive i slot pdu) s :: past))
      (Vouched h sims (.env (.arrive i slot pdu) s :: past)) s.table s.table := .refl _
  refine hinv.step rfl htable (fun m hm => .inl hm) (fun t id hid => .inl hid)
    (fun t n hn => .inl hn) (fun j => (hinv.receipt j).cons rfl htable (hsim j))
    (fun j iccid hq => .inl hq) (fun n hn => absurd hn List.not_mem_nil) ?_ hothers
  intro j slot' pdu' d hfaithful hd harrived
  -- it arrived before, or just now
  have hcases : Arrived sims past j slot' pdu' ∨ j = i ∧ slot' = slot ∧ pdu' = pdu := by
    rcases harrived with hstart | ⟨s₀, hmem⟩
    · exact .inl (.inl hstart)
    · rcases List.mem_cons.mp hmem with heq | hmem
      · cases heq
        exact .inr ⟨rfl, rfl, rfl⟩
      · exact .inl (.inr ⟨s₀, hmem⟩)
  rcases hcases with harrived | ⟨rfl, rfl, rfl⟩
  · rcases hinv.kept j slot' pdu' d hfaithful.of_cons hd harrived with hslot | hwiped | hsecured
    · exact .inl (hsim j slot' pdu' hslot)
    · exact .inr (.inl hwiped.cons)
    · exact .inr (.inr (hsecured.cons rfl htable))
  · left
    rw [hslots, if_pos ⟨rfl, rfl⟩]

theorem deliveryInv_outer {v : Outer ι} (hinv : DeliveryInv h cfg.gatewayID sims table₀ s past q)
    (hstep : v.step s = some s') :
    DeliveryInv h cfg.gatewayID sims table₀ s' (.env v s :: past) q := by
  by_cases hv : ∃ i slot pdu, v = .arrive i slot pdu
  · obtain ⟨i, slot, pdu, rfl⟩ := hv
    exact deliveryInv_arrive hinv hstep
  · refine hinv.same rfl (sameMail_outer ?_ hstep) rfl rfl ?_
    · rintro i slot pdu rfl
      exact hv ⟨i, slot, pdu, rfl⟩
    · intro i slot pdu s₀ heq
      cases heq
      exact hv ⟨i, slot, pdu, rfl⟩

/-! ### Over whole runs -/

/-- The calls of the supervisors, workers and watchdogs keep the invariant. -/
theorem deliveryInv_modem {i : ι} {u : SupervisorThread} {c : SupervisorCall} {a : c.Ans}
    {m : SupervisorWorld Sim} (hinv : DeliveryInv h cfg.gatewayID sims table₀ s past q)
    (hallow : (supervisedProtocols ((receiptProtocol h.toModem (wired cfg (w i))).prod
      identityProtocol) (fun _ => (.idle, none)) u).allows (q (.modem i u)).2 c)
    (hexec : (s.modems i).exec Sim.exec u ch c a = some m)
    (hshared : (s.setModem i m).shared ch i c a = some s') :
    DeliveryInv h cfg.gatewayID sims table₀ s' (.call (.modem i u) (.modem c) a s :: past)
      (Function.update q (.modem i u) ((q (.modem i u)).1,
        (supervisedProtocols ((receiptProtocol h.toModem (wired cfg (w i))).prod
          identityProtocol) (fun _ => (.idle, none)) u).next (q (.modem i u)).2 c a)) := by
  cases u with
  | watchdog n =>
    refine deliveryInv_other hinv ?_ (.inl rfl) hexec hshared
    rintro e rfl
    exact hallow
  | supervisor =>
    cases c with
    | work e => exact deliveryInv_work hinv hallow hexec hshared
    | newWorker => exact deliveryInv_other hinv nofun (.inr rfl) hexec hshared
    | ctxErr | backOff => exact deliveryInv_other hinv nofun (.inl rfl) hexec hshared

theorem deliveryInv_call {t : Thread ι} {c : Call ι} {a : c.Ans}
    (hinv : DeliveryInv h cfg.gatewayID sims table₀ s past q)
    (hallow : (protocols (tunnelProtocol ι (carryProtocol cfg))
      (fun i => (receiptProtocol h.toModem (wired cfg (w i))).prod identityProtocol)
      (fun _ => (.idle, none)) t).allows (q t) c)
    (hexec : s.exec w t ch c a = some s') :
    DeliveryInv h cfg.gatewayID sims table₀ s' (.call t c a s :: past)
      (Function.update q t ((protocols (tunnelProtocol ι (carryProtocol cfg))
        (fun i => (receiptProtocol h.toModem (wired cfg (w i))).prod identityProtocol)
        (fun _ => (.idle, none)) t).next (q t) c a)) := by
  cases c with
  | tunnel c =>
    obtain ⟨u, tunnel, rfl, htunnel, rfl⟩ := exec_tunnel hexec
    exact deliveryInv_tunnel hinv hallow htunnel
  | modem c =>
    obtain ⟨i, u, m, rfl, hm, hshared⟩ := exec_modem hexec
    exact deliveryInv_modem hinv hallow hm hshared
  | lookup iccid =>
    cases t with
    | modem => exact hallow.elim
    | tunnel u =>
      exact hinv.same rfl (sameMail_lookup hexec) (Function.update_eq_self _ q) rfl nofun
  | send addr task =>
    cases t with
    | modem => exact hallow.elim
    | tunnel u =>
      exact hinv.same rfl (sameMail_send hexec) (Function.update_eq_self _ q) rfl nofun

end Steps

section Runs

variable [DecidableEq ι] (h : Router.Host) (cfg : ManagerConfig) (w : ι → Worker)
  (sims : ι → Sim) (table₀ : Buffer.Table)

/-- All that can happen keeps the invariant. -/
def deliveryProof : GatewayProof h cfg w (tunnelProtocol ι (carryProtocol cfg))
    (fun i => (receiptProtocol h.toModem (wired cfg (w i))).prod identityProtocol)
    fun _ => (.idle, none) where
  tunnelHead _ _ _ := True
  tunnel_obeys t l q _ := by
    refine (interpret_obeys (block_obeys_carry l q) fun _ _ _ => rfl).mono fun res _ _ => ?_
    cases res with
    | inl l => trivial
    | inr r => trivial
  run i :=
    (receiptRun h.toModem (wired cfg (w i))).prod (identityRun h.toModem (wired cfg (w i)))
  run_reset _ _ _ _ := ⟨nofun, rfl⟩
  inv := DeliveryInv h cfg.gatewayID sims table₀
  call_inv := deliveryInv_call
  outer_inv := deliveryInv_outer

variable {h cfg w sims table₀}

theorem deliveryInv_reach {c : RecordedConfig ι}
    (hreach : (gatewaySystem h cfg w).recorded.Reach
      ((gatewaySystem h cfg w).recorded.start ⟨.new sims table₀, []⟩ entry) c) :
    ∃ q, DeliveryInv h cfg.gatewayID sims table₀ c.state.state c.state.history q := by
  obtain ⟨q, hinv, -⟩ := (deliveryProof h cfg w sims table₀).reach (⟨none, []⟩, .idle, none)
    deliveryInv_new (fun _ => trivial) (fun _ => ⟨nofun, rfl⟩) hreach
  exact ⟨q, hinv⟩

/-- **No message is lost on its way to the cloud.**  Take a message that was on a SIM at the start
or has arrived on it, and that `DecodePDU` accepts.  After any run of the gateway in which the
replies to `AT+CMGR` that the workers of this modem got were faithful, the message is on the SIM, or
a row with its hash is pending, or such a row was acknowledged by the cloud, unless the worker has
called `DeleteAllSMS` while the message was on the SIM. -/
theorem sms_kept {c : RecordedConfig ι}
    (hreach : (gatewaySystem h cfg w).recorded.Reach
      ((gatewaySystem h cfg w).recorded.start ⟨.new sims table₀, []⟩ entry) c) {i : ι}
    (hfaithful : Faithful c.state.history i) {slot : ℤ} {pdu : List UInt8} {d : At.DecodedSMS}
    (hd : At.decodePDU h.toModem.toHost pdu = .ok d)
    (harrived : Arrived sims c.state.history i slot pdu) :
    Kept table₀ c.state.state c.state.history i slot pdu d.pduHash := by
  obtain ⟨q, hinv⟩ := deliveryInv_reach hreach
  exact hinv.kept i slot pdu d hfaithful hd harrived

/-- **The notices that the cloud gets are consistent.**  However often the gateway writes an
`SMS_RECEIVED`, out of the outbox or when it flushes the buffer, for whichever modem and on
whichever connection: it carries the gateway's id and a message that was stored under the buffer id,
and any two with the same buffer id are the same. -/
theorem notices_agree {c : RecordedConfig ι}
    (hreach : (gatewaySystem h cfg w).recorded.Reach
      ((gatewaySystem h cfg w).recorded.start ⟨.new sims table₀, []⟩ entry) c) :
    (∀ n ∈ writtenNotices c.state.history,
      Genuine cfg.gatewayID c.state.state c.state.history n) ∧
    ∀ n ∈ writtenNotices c.state.history, ∀ n' ∈ writtenNotices c.state.history,
      n.bufferID = n'.bufferID → n = n' := by
  obtain ⟨q, hinv⟩ := deliveryInv_reach hreach
  refine ⟨hinv.written, fun n hn n' hn' hid => ?_⟩
  obtain ⟨hgateway, hfiled⟩ := hinv.written n hn
  obtain ⟨hgateway', hfiled'⟩ := hinv.written n' hn'
  rw [← hid] at hfiled'
  have hmessage : n.message = n'.message := hinv.unique _ _ _ hfiled hfiled'
  exact Notice.ext (hgateway.trans hgateway'.symm) hid hmessage

/-- **The gateway invents no messages.**  In any run of the gateway in which the replies to
`AT+CMGR` that the workers got were faithful, every `SMS_RECEIVED` that is written, for a row that
was not in the buffer at the start, has the sender, the body, the time and the service centre of a
PDU that has arrived in a slot of a SIM, and the ICCID under which a worker of that modem had
registered. -/
theorem notices_authentic {c : RecordedConfig ι}
    (hreach : (gatewaySystem h cfg w).recorded.Reach
      ((gatewaySystem h cfg w).recorded.start ⟨.new sims table₀, []⟩ entry) c)
    (hfaithful : ∀ i, Faithful c.state.history i) {n : Notice}
    (hn : n ∈ writtenNotices c.state.history)
    (hnew : ∀ r ∈ table₀.rows, r.entry ≠ (n.bufferID, n.message)) :
    Authentic h sims c.state.history n.message := by
  obtain ⟨q, hinv⟩ := deliveryInv_reach hreach
  obtain ⟨-, hfiled⟩ := hinv.written n hn
  rcases hinv.authentic _ _ hfiled with ⟨r, hr, hentry⟩ | hvouched
  · exact absurd hentry (hnew r hr)
  · exact hvouched hfaithful

end Runs

/-! ### A message on its way -/

/-- A host to which no payload is known. -/
def plainHost : Router.Host where
  toModem := .plain
  unmarshalCheckSignal _ := .error []
  unmarshalDeleteAllSMS _ := .error []

/-- A gateway with one modem. -/
abbrev oneModem :=
  (gatewaySystem plainHost Tunnel.sampleConfig fun _ : Unit => Worker.plain).recorded

/-- Its start, with a message on the SIM. -/
abbrev oneModemStart :=
  oneModem.start ⟨.new (fun _ slot => if slot = 3 then some samplePDU else none) .empty, []⟩ entry

/-- The answers in a run: the message is received, and nothing fails. -/
def deliveryAnswer : (c : Call Unit) → c.Ans :=
  answerWith
    (fun
      | .select _ => .event (.outbox (.event (.smsReceived (wireEvent (lit "A")))))
      | .pendingRows => some [⟨1, (wireEvent (lit "A")).message, .pending⟩]
      | c => Tunnel.sampleAnswer c)
    (fun
      | .execute (.readSMS _) => .ok [lit "+CMGR: 0,,16", samplePDU]
      | e => plainAnswer (.urc (lit "+CMTI: \"SM\",3")) none .active e)
    none

/-- The worker starts, and receives the message. -/
def receiptMoves : List OneModemMove :=
  workerStart deliveryAnswer ++ callsWith deliveryAnswer 7 (.modem () .supervisor)

/-- The event is taken out of the outbox and written, and the flush writes the row too. -/
def noticeMoves : List OneModemMove :=
  tunnelStart deliveryAnswer ++ sessionCalls deliveryAnswer .writer 5 ++
    sessionCalls deliveryAnswer .flushOnConnect 9

/-- An occurrence is not a reply to `AT+CMGR` other than the PDU in the slot. -/
def faithfulIn :
    System.Occurrence (Thread Unit) (World Unit) (Call Unit) Call.Ans (Outer Unit) → Bool
  | .call (.modem i _) (.modem (.work (.execute (.readSMS slot))))
      (.ok lines : Except At.Err (List At.Line)) s => faithful (s.sim i slot) lines
  | _ => true

theorem faithful_of_all {past : History Unit} (hall : past.all faithfulIn = true) (i : Unit) :
    Faithful past i :=
  fun _ _ _ _ hmem => List.all_eq_true.mp hall _ hmem

/-- The message has left the SIM. -/
theorem sms_kept_buffered :
    ∃ c, oneModem.Reach oneModemStart c ∧ Faithful c.state.history () ∧
      c.state.state.sim () 3 = none ∧
      Kept .empty c.state.state c.state.history () 3 samplePDU sampleSMS.pduHash := by
  have hplay : (oneModem.play oneModemStart receiptMoves).map (fun c =>
      (c.state.history.all faithfulIn, c.state.state.sim () 3)) = some (true, none) := by
    decide +kernel
  obtain ⟨c, hc, hres⟩ := Option.map_eq_some_iff.mp hplay
  obtain ⟨hall, hempty⟩ := Prod.mk.inj hres
  have hreach := System.reach_of_play hc
  have hfaithful := faithful_of_all hall ()
  exact ⟨c, hreach, hfaithful, hempty, sms_kept hreach hfaithful sampleSMS_decodes (.inl rfl)⟩

/-- A run in which the message is written twice. -/
theorem exists_two_notices :
    ∃ c n n', oneModem.Reach oneModemStart c ∧ (∀ i, Faithful c.state.history i) ∧
      writtenNotices c.state.history = [n, n'] ∧ n.bufferID = n'.bufferID := by
  have hplay : (oneModem.play oneModemStart (receiptMoves ++ noticeMoves)).map (fun c =>
      (c.state.history.all faithfulIn, (writtenNotices c.state.history).map Notice.bufferID)) =
      some (true, [1, 1]) := by
    decide +kernel
  obtain ⟨c, hc, hres⟩ := Option.map_eq_some_iff.mp hplay
  obtain ⟨hall, hids⟩ := Prod.mk.inj hres
  obtain ⟨n, rest, hwritten, hn, hrest⟩ := List.map_eq_cons_iff.mp hids
  obtain ⟨n', rest, rfl, hn', hnil⟩ := List.map_eq_cons_iff.mp hrest
  rw [List.map_eq_nil_iff.mp hnil] at hwritten
  exact ⟨c, n, n', System.reach_of_play hc, faithful_of_all hall, hwritten, hn.trans hn'.symm⟩

/-- The notices are the same. -/
theorem notices_agree_twice :
    ∃ c n n', oneModem.Reach oneModemStart c ∧ writtenNotices c.state.history = [n, n'] ∧
      n = n' := by
  obtain ⟨c, n, n', hreach, -, hwritten, hid⟩ := exists_two_notices
  refine ⟨c, n, n', hreach, hwritten, (notices_agree hreach).2 n ?_ n' ?_ hid⟩
  · rw [hwritten]
    exact List.mem_cons_self
  · rw [hwritten]
    exact List.mem_cons_of_mem _ List.mem_cons_self

/-- The notice is about the message that was on the SIM. -/
theorem notices_authentic_sample :
    ∃ c n, oneModem.Reach oneModemStart c ∧ (∀ i, Faithful c.state.history i) ∧
      n ∈ writtenNotices c.state.history ∧
      Authentic plainHost (fun _ slot => if slot = 3 then some samplePDU else none)
        c.state.history n.message := by
  obtain ⟨c, n, n', hreach, hfaithful, hwritten, -⟩ := exists_two_notices
  have hn : n ∈ writtenNotices c.state.history := by
    rw [hwritten]
    exact List.mem_cons_self
  exact ⟨c, n, hreach, hfaithful, hn,
    notices_authentic hreach hfaithful hn (List.forall_mem_nil _)⟩

end SmsGate.Gateway
