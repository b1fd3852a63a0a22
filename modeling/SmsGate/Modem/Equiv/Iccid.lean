import SmsGate.Go.Hex
import SmsGate.Modem.Worker

/-!
# The ICCID reader and the buffer's format check

`ReadICCID` takes the first line that is long enough, whatever stands on it, while `Insert` wants
19 or 20 digits.  The modem is any machine that answers commands: its state is arbitrary, and the
same command can be answered differently each time.

* `readICCID_eq_ok_iff`: `ReadICCID` is a search in the lines that the modem answers;
* `validICCID_toUpper`: upper-casing makes no digits and loses none;
* `readICCID_validICCID_iff`: when the two agree, for one read and for a worker that has been
  through `runInitSequence`.
-/

namespace SmsGate.Modem

open Go Go.Strings

/-! ### Digits and upper case -/

theorem isHexDigit_of_isDigit : ∀ b : UInt8, isDigit b → (Hex.fromHexChar b).isSome := by
  decide +kernel

/-- A byte whose upper case is a digit is that digit. -/
theorem upperByte_eq_of_isDigit : ∀ b : UInt8, b.toNat < 128 →
    (isDigit b ∨ isDigit (Hex.upperByte b)) → Hex.upperByte b = b := by
  decide +kernel

theorem toUpper_eq_self (t : CaseTable) {s : List UInt8} (hascii : ∀ b ∈ s, b.toNat < 128)
    (hdigit : ∀ b ∈ s, isDigit b ∨ isDigit (Hex.upperByte b)) : toUpper t s = s := by
  rw [Hex.toUpper_of_ascii t hascii]
  conv_rhs => rw [← List.map_id s]
  refine List.map_congr_left fun b hb => ?_
  exact upperByte_eq_of_isDigit b (hascii b hb) (hdigit b hb)

theorem toUpper_of_digits (t : CaseTable) {s : List UInt8} (h : ∀ b ∈ s, isDigit b) :
    toUpper t s = s := by
  refine toUpper_eq_self t (fun b hb => ?_) fun b hb => .inl (h b hb)
  exact Hex.lt_of_isHexDigit b (isHexDigit_of_isDigit b (h b hb))

/-- Upper-casing makes no digits: a string whose upper case is digits consists of them. -/
theorem toUpper_of_toUpper_digits (t : CaseTable) {s : List UInt8}
    (h : ∀ b ∈ toUpper t s, isDigit b) : toUpper t s = s := by
  -- every piece of the string is one ASCII byte, since its upper case is a digit
  have hpieces : ∀ p ∈ Utf8.pieces s, p ∈ Set.range Hex.digitPiece := by
    intro p hp
    refine Hex.mem_range_digitPiece_of_upper t hp fun c hc => isHexDigit_of_isDigit c (h c ?_)
    rw [toUpper, Utf8.runes, List.map_map]
    exact List.mem_flatMap.mpr ⟨_, List.mem_map_of_mem hp, hc⟩
  have hascii : ∀ b ∈ s, b.toNat < 128 := by
    intro b hb
    rw [← Utf8.flatMap_snd_pieces s] at hb
    obtain ⟨p, hp, hb⟩ := List.mem_flatMap.mp hb
    obtain ⟨x, rfl⟩ := hpieces p hp
    rw [List.mem_singleton.mp hb]
    exact Hex.lt_of_isHexDigit x.1 x.2
  refine toUpper_eq_self t hascii fun b hb => .inr (h _ ?_)
  rw [Hex.toUpper_of_ascii t hascii]
  exact List.mem_map_of_mem hb

theorem validICCID_toUpper (t : CaseTable) (s : List UInt8) :
    validICCID (toUpper t s) = validICCID s := by
  rw [Bool.eq_iff_iff]
  constructor
  · intro h
    have hdigits : ∀ b ∈ toUpper t s, isDigit b := by
      simp only [validICCID, Bool.and_eq_true, List.all_eq_true] at h
      exact h.1
    rwa [toUpper_of_toUpper_digits t hdigits] at h
  · intro h
    have hdigits : ∀ b ∈ s, isDigit b := by
      simp only [validICCID, Bool.and_eq_true, List.all_eq_true] at h
      exact h.1
    rwa [toUpper_of_digits t hdigits]

/-! ### `ReadICCID` -/

section Machine

variable {σ : Type} (exec : At.Cmd → StateM σ (Except At.Err (List At.Line)))
  (sleep : ℕ → StateM σ Unit)

/-- The lines that the modem answers to commands sent one after the other; a command that fails
has none. -/
def linesOf : List At.Cmd → σ → List At.Line
  | [], _ => []
  | c :: cs, s => (exec c s).1.toOption.getD [] ++ linesOf cs (exec c s).2

/-- The lines in which `ReadICCID` looks. -/
def iccidLines (s : σ) : List At.Line := linesOf exec [.ccid, .iccid, .qccid] s

/-- A line that `ReadICCID` takes for an ICCID. -/
def longEnough (l : At.Line) : Bool := 19 ≤ (At.cleanICCID l).length

theorem iccidOf_eq (t : CaseTable) (l : At.Line) : At.iccidOf t l =
    if longEnough l then some (toUpper t (removeAll (At.cleanICCID l) 0x20)) else none := by
  unfold At.iccidOf longEnough
  dsimp only
  by_cases hl : 19 ≤ (At.cleanICCID l).length
  · rw [if_pos hl, if_pos (decide_eq_true hl)]
  · rw [if_neg hl, if_neg (by rw [decide_eq_true_eq]; exact hl)]

theorem findSome?_iccidOf (t : CaseTable) (lines : List At.Line) :
    lines.findSome? (At.iccidOf t) =
      (lines.find? longEnough).map fun l => toUpper t (removeAll (At.cleanICCID l) 0x20) := by
  induction lines with
  | nil => rfl
  | cons l lines ih =>
    rw [List.findSome?_cons, iccidOf_eq, List.find?_cons, ih]
    cases longEnough l with
    | true => rfl
    | false => rfl

theorem bind_run {α β : Type} (x : StateM σ α) (f : α → StateM σ β) (s : σ) :
    (x >>= f) s = f (x s).1 (x s).2 := rfl

/-- The first command decides, unless it fails or has no line that is long enough. -/
theorem readICCIDFrom_cons (t : CaseTable) (c : At.Cmd) (cs : List At.Cmd) (s : σ) :
    At.readICCIDFrom exec t (c :: cs) s =
      (((exec c s).1.toOption.getD []).findSome? (At.iccidOf t)).elim
        (At.readICCIDFrom exec t cs (exec c s).2) fun x => (.ok x, (exec c s).2) := by
  rw [At.readICCIDFrom, bind_run]
  cases (exec c s).1 with
  | error e => rfl
  | ok lines =>
    dsimp only [Except.toOption, Option.getD]
    cases lines.findSome? (At.iccidOf t) with
    | none => rfl
    | some x => rfl

theorem readICCIDFrom_eq (t : CaseTable) (cs : List At.Cmd) (s : σ) :
    (At.readICCIDFrom exec t cs s).1 =
      match (linesOf exec cs s).findSome? (At.iccidOf t) with
      | some x => .ok x
      | none => .error (.malformed (lit "could not read ICCID")) := by
  induction cs generalizing s with
  | nil => rfl
  | cons c cs ih =>
    rw [readICCIDFrom_cons, linesOf, List.findSome?_append]
    cases ((exec c s).1.toOption.getD []).findSome? (At.iccidOf t) with
    | some x => rfl
    | none => exact ih _

/-- `ReadICCID` cleans the first long line of the answers. -/
theorem readICCID_eq_ok_iff (t : CaseTable) (s : σ) (x : List UInt8) :
    (At.readICCID exec t s).1 = .ok x ↔
      ∃ l, (iccidLines exec s).find? longEnough = some l ∧
        x = toUpper t (removeAll (At.cleanICCID l) 0x20) := by
  rw [At.readICCID, readICCIDFrom_eq, findSome?_iccidOf, iccidLines]
  cases (linesOf exec [.ccid, .iccid, .qccid] s).find? longEnough with
  | none => exact ⟨nofun, nofun⟩
  | some l =>
    rw [Option.map_some]
    dsimp only
    rw [Except.ok.injEq]
    constructor
    · rintro rfl
      exact ⟨l, rfl, rfl⟩
    · rintro ⟨l', hl, hx⟩
      obtain rfl := Option.some.inj hl
      exact hx.symm

/-! ### `runInitSequence` -/

/-- The states that the modem can get into while the init sequence runs. -/
inductive Reaches : σ → σ → Prop
  | refl (s : σ) : Reaches s s
  | exec {s s' : σ} (c : At.Cmd) (h : Reaches s s') : Reaches s (exec c s').2
  | sleep {s s' : σ} (ms : ℕ) (h : Reaches s s') : Reaches s (sleep ms s').2

/-- A program that goes from reachable states to reachable states. -/
def Stays {α : Type} (p : StateM σ α) : Prop :=
  ∀ s s', Reaches exec sleep s s' → Reaches exec sleep s (p s').2

variable {exec sleep}

theorem stays_outcome (c : At.Cmd) : Stays exec sleep (At.outcome exec c) :=
  fun _ _ h => .exec c h

theorem stays_query {α : Type} (c : At.Cmd) (parse : List At.Line → Except At.Err α) :
    Stays exec sleep (At.query exec c parse) :=
  fun _ _ h => .exec c h

theorem stays_readICCIDFrom (t : CaseTable) (cs : List At.Cmd) :
    Stays exec sleep (At.readICCIDFrom exec t cs) := by
  induction cs with
  | nil => exact fun _ _ h => h
  | cons c cs ih =>
    intro s s' h
    rw [readICCIDFrom_cons]
    cases ((exec c s').1.toOption.getD []).findSome? (At.iccidOf t) with
    | some x => exact .exec c h
    | none => exact ih _ _ (.exec c h)

theorem retryN_succ {α : Type} (fn : StateM σ (Except At.Err α)) (n : ℕ) (err : At.Err) (s : σ) :
    retryN sleep fn (n + 1) err s =
      match (fn s).1 with
      | .ok a => (.ok a, (fn s).2)
      | .error e => retryN sleep fn n e (sleep 500 (fn s).2).2 := by
  have hbind : retryN sleep fn (n + 1) err s =
      (match (fn s).1 with
      | .ok a => (pure (.ok a) : StateM σ (Except At.Err α))
      | .error e => (do sleep 500; retryN sleep fn n e)) (fn s).2 := rfl
  rw [hbind]
  cases (fn s).1 with
  | ok a => rfl
  | error e => rfl

/-- A retried program that succeeds did so from some state on the way. -/
theorem retryN_eq_ok {α : Type} {fn : StateM σ (Except At.Err α)} (hfn : Stays exec sleep fn)
    {s s' : σ} (hs : Reaches exec sleep s s') {n : ℕ} {err : At.Err} {a : α}
    (h : (retryN sleep fn n err s').1 = .ok a) :
    ∃ s₁, Reaches exec sleep s s₁ ∧ (fn s₁).1 = .ok a := by
  induction n generalizing s' err with
  | zero => cases h
  | succ n ih =>
    rw [retryN_succ] at h
    cases hres : (fn s').1 with
    | ok b =>
      rw [hres] at h
      exact ⟨s', hs, hres.trans h⟩
    | error e =>
      rw [hres] at h
      exact ih (.sleep 500 (hfn s s' hs)) h

theorem stays_retryN {α : Type} {fn : StateM σ (Except At.Err α)} (hfn : Stays exec sleep fn)
    (n : ℕ) (err : At.Err) : Stays exec sleep (retryN sleep fn n err) := by
  induction n generalizing err with
  | zero => exact fun _ _ h => h
  | succ n ih =>
    intro s s' hs
    rw [retryN_succ]
    cases (fn s').1 with
    | ok a => exact hfn s s' hs
    | error e => exact ih e _ _ (.sleep 500 (hfn s s' hs))

/-- A step of the init sequence that must succeed: when the sequence does, so did the step, and
the rest of it. -/
theorem bind_eq_ok {α β : Type} {x : StateM σ (Except At.Err α)}
    {g : Except At.Err α → StateM σ (Except InitErr β)}
    (hg : ∀ e, ∃ e', g (.error e) = pure (.error e')) {s : σ} {b : β}
    (h : ((x >>= g) s).1 = .ok b) :
    ∃ a, (x s).1 = .ok a ∧ (g (.ok a) (x s).2).1 = .ok b := by
  change (g (x s).1 (x s).2).1 = .ok b at h
  cases hx : (x s).1 with
  | error e =>
    obtain ⟨e', he⟩ := hg e
    rw [hx, he] at h
    cases h
  | ok a =>
    rw [hx] at h
    exact ⟨a, rfl, h⟩

/-- The ICCID of a worker that is through its init sequence was read by `ReadICCID`, in a state
that the modem got into on the way. -/
theorem exists_readICCID_of_runInitSequence {t : CaseTable} {expectedICCID : List UInt8} {s : σ}
    {id : Identity} (h : (runInitSequence exec sleep t expectedICCID s).1 = .ok id) :
    ∃ s₁, Reaches exec sleep s s₁ ∧ (At.readICCID exec t s₁).1 = .ok id.iccid := by
  unfold runInitSequence at h
  -- the four steps in front of the capabilities
  obtain ⟨_, _, h⟩ := bind_eq_ok (fun _ => ⟨_, rfl⟩) h
  obtain ⟨_, _, h⟩ := bind_eq_ok (fun _ => ⟨_, rfl⟩) h
  obtain ⟨_, _, h⟩ := bind_eq_ok (fun _ => ⟨_, rfl⟩) h
  obtain ⟨_, _, h⟩ := bind_eq_ok (fun _ => ⟨_, rfl⟩) h
  have hquery : Stays exec sleep (At.query exec .readCapabilities At.capabilitiesOf) :=
    stays_query _ _
  have hstart := hquery _ _ (stays_outcome .enableCMTIURCs _ _ (stays_outcome .setPDUMode _ _
    (stays_outcome .disableEcho _ _
      (stays_retryN (stays_outcome .ping) 3 .closed _ _ (.refl s)))))
  dsimp only at h
  rw [bind_run] at h
  obtain ⟨iccid, hread, h⟩ := bind_eq_ok (fun _ => ⟨_, rfl⟩) h
  obtain ⟨s₁, hs₁, hok⟩ := retryN_eq_ok (stays_readICCIDFrom t _) hstart hread
  refine ⟨s₁, hs₁, ?_⟩
  dsimp only at h
  split_ifs at h with hmatch
  · cases h
  · cases h
    exact hok

/-- `Insert` rejects every message that comes with an ICCID of the wrong format, and no other. -/
theorem insert_invalidICCID_iff (fault : Buffer.Fault) (sec : ℤ) (m : Buffer.Message)
    (tbl : Buffer.Table) :
    (Buffer.insert fault sec m tbl).1 = .error (.invalidICCID m.iccid) ↔ ¬ validICCID m.iccid := by
  constructor
  · intro h hvalid
    unfold Buffer.insert at h
    rw [if_neg (not_not.mpr hvalid)] at h
    cases fault with
    | none =>
      dsimp only at h
      split_ifs at h
    | exec committed => cases h
    | lastInsertId => cases h
    | rowsAffected => cases h
  · intro hvalid
    unfold Buffer.insert
    rw [if_pos hvalid]

variable (exec sleep)

/-- **When the ICCID reader and the buffer agree.**  Every ICCID that a read gives passes the
buffer's check iff the first line that is long enough has 19 or 20 digits on it and nothing else
but blanks.  For a worker that is through its init sequence this line comes from one of its reads,
and `Insert` rejects all of its messages iff the line is not of that form. -/
theorem readICCID_validICCID_iff (t : CaseTable) (s : σ) :
    ((∀ x, (At.readICCID exec t s).1 = .ok x → validICCID x) ↔
      ∀ l, (iccidLines exec s).find? longEnough = some l →
        validICCID (removeAll (At.cleanICCID l) 0x20)) ∧
    ∀ expectedICCID id, (runInitSequence exec sleep t expectedICCID s).1 = .ok id →
      ∃ s₁ l, Reaches exec sleep s s₁ ∧ (iccidLines exec s₁).find? longEnough = some l ∧
        ∀ fault sec m tbl, m.iccid = id.iccid →
          ((Buffer.insert fault sec m tbl).1 = .error (.invalidICCID id.iccid) ↔
            ¬ validICCID (removeAll (At.cleanICCID l) 0x20)) := by
  refine ⟨⟨fun h l hl => ?_, fun h x hx => ?_⟩, fun expectedICCID id hinit => ?_⟩
  · rw [← validICCID_toUpper t]
    exact h _ ((readICCID_eq_ok_iff exec t s _).mpr ⟨l, hl, rfl⟩)
  · obtain ⟨l, hl, heq⟩ := (readICCID_eq_ok_iff exec t s x).mp hx
    rw [heq, validICCID_toUpper]
    exact h l hl
  · obtain ⟨s₁, hs₁, hread⟩ := exists_readICCID_of_runInitSequence hinit
    obtain ⟨l, hl, hiccid⟩ := (readICCID_eq_ok_iff exec t s₁ _).mp hread
    refine ⟨s₁, l, hs₁, hl, fun fault sec m tbl hm => ?_⟩
    rw [← hm, insert_invalidICCID_iff, hm, hiccid, validICCID_toUpper]

end Machine

/-- A modem that reports its ICCID with the filler nibble of the SIM's file. -/
def fillerModem (c : At.Cmd) : StateM Unit (Except At.Err (List At.Line)) :=
  pure <| .ok <| match c with
    | .readCapabilities => [lit "+GCAP: +CGSM"]
    | .ccid => [lit "+CCID: 8949020000012345678F"]
    | .readIMSI => [lit "262011234567890"]
    | .readOperator => [lit "+COPS: 0,0,\"Telekom.de\",7"]
    | _ => []

/-- An ICCID of 19 digits and a filler gets a worker through its init sequence, and keeps every
message of this worker out of the buffer. -/
theorem runInitSequence_filler :
    ∃ id : Identity, id.iccid = lit "8949020000012345678F" ∧
      (runInitSequence fillerModem (fun _ => pure ()) CaseTable.ascii [] ()).1 = .ok id ∧
      ∀ fault sec m tbl, m.iccid = id.iccid →
        (Buffer.insert fault sec m tbl).1 = .error (.invalidICCID id.iccid) := by
  refine ⟨⟨lit "8949020000012345678F", lit "262011234567890", lit "Telekom.de"⟩, rfl,
    by decide +kernel, fun fault sec m tbl hm => ?_⟩
  rw [← hm, insert_invalidICCID_iff, hm]
  decide

end SmsGate.Modem
