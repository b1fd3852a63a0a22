import SmsGate.At.Equiv.Text

/-!
# The grammar of `DecodePDU`

`Deliver` is an SMS-DELIVER as a record: its fields carry the lengths that the octets announce, so
that a value is a well-formed message, and `Deliver.octets` is its octets.

* `decodeOctets_octets`: the decoder reads every such message back, field by field;
* `grammar_iff`: the octets of such messages are those that satisfy `Grammar`, which is stated by
  positions;
* `decodeOctets_of_not_grammar`: every other list of octets is an error, never a panic;
* `decodePDU_accepts_iff`: the same for the hex string.
-/

namespace SmsGate.At

open Go Go.Utf8 Go.Strings Go.Outcome

/-- The user data header indicator, bit 6 of the first octet. -/
def Udhi (pduType : UInt8) : Prop := (pduType >>> 6) &&& (0x01 : UInt8) = 1

instance (pduType : UInt8) : Decidable (Udhi pduType) :=
  inferInstanceAs (Decidable (_ = _))

/-- An SMS-DELIVER with its service centre. -/
structure Deliver where
  /-- The service centre: type octet and semi-octets, or nothing. -/
  smsc : List UInt8
  pduType : UInt8
  /-- The number of semi-octets of the originating address. -/
  oaLen : UInt8
  oaType : UInt8
  oa : List UInt8
  pid : UInt8
  dcs : UInt8
  scts : List UInt8
  udl : UInt8
  /-- The user data, and whatever follows it. -/
  ud : List UInt8
  smsc_lt : smsc.length < 256
  mti : pduType &&& 0x03 = 0
  oa_length : oa.length = (oaLen.toNat + 1) / 2
  scts_length : scts.length = 7
  udh_le : Udhi pduType → ud ≠ [] ∧ (ud.getD 0 0).toNat + 1 ≤ ud.length

namespace Deliver

/-- The octets from the originating address on. -/
def tail (d : Deliver) : List UInt8 :=
  d.oaLen :: d.oaType :: (d.oa ++ d.pid :: d.dcs :: (d.scts ++ d.udl :: d.ud))

/-- The octets of the PDU. -/
def octets (d : Deliver) : List UInt8 :=
  UInt8.ofNat d.smsc.length :: d.smsc ++ d.pduType :: d.tail

/-- The number of octets of the user data header, its length octet included. -/
def headerLen (d : Deliver) : ℕ := if Udhi d.pduType then (d.ud.getD 0 0).toNat + 1 else 0

/-- The user data behind the header. -/
def payload (d : Deliver) : List UInt8 := d.ud.drop d.headerLen

/-- What the decoder takes for the length of the payload, in septets or octets. -/
def payloadLen (d : Deliver) : ℕ :=
  match dcsEncoding d.dcs with
  | .gsm7 => d.udl.toNat - (8 * d.headerLen + 6) / 7
  | _ => d.udl.toNat - d.headerLen

end Deliver

/-- The text of `n` units of user data. -/
def bodyText (enc : Encoding) (ud : List UInt8) (n : ℕ) : List UInt8 :=
  match enc with
  | .gsm7 =>
    encodeRunes (gsm7Runes (Bits.fields 7 (Bits.stream 8 ud) (min n (ud.length * 8 / 7))))
  | .ucs2 => encodeRunes (Utf16.decode (units16 (ud.take (n * 2))))
  | .eightBit => ud.take n

/-- The message the decoder makes of a DELIVER. -/
def Deliver.decoded (d : Deliver) (pduHash : List UInt8) : DecodedSMS where
  smsc := smscAddress d.smsc
  sender := address d.oa d.oaLen.toNat d.oaType
  body := bodyText (dcsEncoding d.dcs) d.payload d.payloadLen
  timestamp := sctsTime d.scts
  pduHash := pduHash

/-! ### The decoder on a well-formed message -/

theorem take_min_length (ud : List UInt8) (n : ℕ) :
    ud.take (if ud.length < n then ud.length else n) = ud.take n := by
  split_ifs with h
  · rw [List.take_length, List.take_of_length_le (by omega)]
  · rfl

theorem decodeBody_eq (enc : Encoding) (ud : List UInt8) (n : ℕ) :
    decodeBody enc ud n = .ok (bodyText enc ud n) := by
  have hle : ∀ m, (if ud.length < m then ud.length else m) ≤ ud.length := fun m => by
    split_ifs <;> omega
  cases enc with
  | gsm7 => rw [decodeBody, unpackGSM7_eq, ok_bind, decodeGSM7Text_eq, bodyText]
  | eightBit => rw [decodeBody, slice_of_le (Nat.zero_le _) (hle n), take_min_length]; rfl
  | ucs2 =>
    simp only [decodeBody, bodyText]
    rw [slice_of_le (Nat.zero_le _) (hle (n * 2)), ok_bind, decodeUCS2_eq, take_min_length]
    rfl

theorem cutUDH_eq (d : Deliver) :
    cutUDH d.pduType (dcsEncoding d.dcs) d.ud d.udl.toNat = .ok (d.payload, d.payloadLen) := by
  rw [cutUDH, Deliver.payload, Deliver.payloadLen, Deliver.headerLen]
  by_cases hu : Udhi d.pduType
  · obtain ⟨hne, hle⟩ := d.udh_le hu
    have hpos : 0 < d.ud.length := List.length_pos_iff.mpr hne
    have hget : d.ud.getD 0 0 = d.ud[0] := by
      rw [List.getD_eq_getElem?_getD, List.getElem?_eq_getElem hpos, Option.getD_some]
    rw [hget] at hle ⊢
    rw [if_pos hu, if_pos (show _ = _ from hu), failIf_of_false (by omega), ok_bind,
      index_of_lt hpos, ok_bind]
    dsimp only
    rw [failIf_of_false (by omega), ok_bind, slice_of_le hle le_rfl, ok_bind, List.take_length,
      Nat.mul_comm 8]
    cases dcsEncoding d.dcs with
    | gsm7 =>
      rw [if_pos rfl]
      dsimp only
      congr 2
      split_ifs <;> omega
    | eightBit => rfl
    | ucs2 => rfl
  · rw [if_neg hu, if_neg (show ¬ _ = _ from hu), List.drop_zero]
    cases dcsEncoding d.dcs <;> rfl

/-- What follows the cursor of the decoder at each of its steps. -/
theorem Deliver.drop_octets (d : Deliver) :
    let pos := 1 + d.smsc.length
    let oaBytes := (d.oaLen.toNat + 1) / 2
    d.octets.drop pos = d.pduType :: d.tail ∧
    d.octets.drop (pos + 1) = d.tail ∧
    d.octets.drop (pos + 1 + 1) =
      d.oaType :: (d.oa ++ d.pid :: d.dcs :: (d.scts ++ d.udl :: d.ud)) ∧
    d.octets.drop (pos + 1 + 1 + 1) = d.oa ++ d.pid :: d.dcs :: (d.scts ++ d.udl :: d.ud) ∧
    d.octets.drop (pos + 1 + 1 + 1 + oaBytes) = d.pid :: d.dcs :: (d.scts ++ d.udl :: d.ud) ∧
    d.octets.drop (pos + 1 + 1 + 1 + oaBytes + 1) = d.dcs :: (d.scts ++ d.udl :: d.ud) ∧
    d.octets.drop (pos + 1 + 1 + 1 + oaBytes + 1 + 1) = d.scts ++ d.udl :: d.ud ∧
    d.octets.drop (pos + 1 + 1 + 1 + oaBytes + 1 + 1 + 7) = d.udl :: d.ud ∧
    d.octets.drop (pos + 1 + 1 + 1 + oaBytes + 1 + 1 + 7 + 1) = d.ud := by
  have h0 : d.octets.drop (1 + d.smsc.length) = d.pduType :: d.tail := by
    rw [Deliver.octets, List.cons_append, Nat.add_comm, List.drop_succ_cons, List.drop_left]
  have h1 := drop_succ_of_drop h0
  have h2 := drop_succ_of_drop h1
  have h3 := drop_succ_of_drop h2
  have h4 := drop_add_of_drop h3 (congrArg _ d.oa_length.symm)
  have h5 := drop_succ_of_drop h4
  have h6 := drop_succ_of_drop h5
  have h7 := drop_add_of_drop h6 (congrArg _ d.scts_length.symm)
  exact ⟨h0, h1, h2, h3, h4, h5, h6, h7, drop_succ_of_drop h7⟩

/-- **Every well-formed message is read back.** -/
theorem decodeOctets_octets (d : Deliver) (pduHash : List UInt8) :
    decodeOctets d.octets pduHash = .ok (d.decoded pduHash) := by
  have hlen : (UInt8.ofNat d.smsc.length).toNat = d.smsc.length :=
    Bits.toNat_ofNat_of_lt d.smsc_lt
  have hsmsc : (decodeSMSC d.octets : Outcome DecodeErr _) =
      .ok (smscAddress d.smsc, 1 + d.smsc.length) := decodeSMSC_eq rfl hlen
  obtain ⟨h0, h1, h2, h3, h4, h5, h6, h7, h8⟩ := d.drop_octets
  have l0 := lt_of_drop h0
  have l1 := lt_of_drop h1
  have l2 := lt_of_drop h2
  have l4 := lt_of_drop h4
  have l5 := lt_of_drop h5
  have l7 := lt_of_drop h7
  have hoa := d.oa_length
  have hscts := d.scts_length
  simp only [List.length_cons, List.length_append] at l0 l1 l2 l4 l5 l7
  unfold decodeOctets
  rw [hsmsc, ok_bind]
  dsimp only
  rw [failIf_of_false (by omega), ok_bind, index_of_drop h0, ok_bind,
    failIf_of_false (not_not.mpr d.mti), ok_bind, failIf_of_false (by omega), ok_bind,
    index_of_drop h1, ok_bind, index_of_drop h2, ok_bind, failIf_of_false (by omega), ok_bind,
    slice_of_drop h3 (by omega) (by rw [hoa]), ok_bind, decodeBCDAddress_eq, ok_bind,
    failIf_of_false (by omega), ok_bind, failIf_of_false (by omega), ok_bind, index_of_drop h5,
    ok_bind, failIf_of_false (by omega), ok_bind,
    slice_of_drop h6 (by omega) (by rw [hscts]), ok_bind, decodeSCTS_eq hscts, ok_bind,
    failIf_of_false (by omega), ok_bind, index_of_drop h7, ok_bind,
    slice_of_le (by omega) le_rfl, ok_bind, List.take_length, h8, cutUDH_eq, ok_bind,
    decodeBody_eq]
  rfl

/-! ### The grammar by positions -/

/-- The octets that `DecodePDU` accepts: with the length `s` of the service centre in front, the
type octet at `1 + s`, the address from `2 + s` on, and the length of the user data at `udlPos`. -/
def Grammar (b : List UInt8) : Prop :=
  let s := (b.getD 0 0).toNat
  let t := b.getD (1 + s) 0
  let n := (b.getD (2 + s) 0).toNat
  let udlPos := 4 + s + (n + 1) / 2 + 1 + 1 + 7
  1 + s < b.length ∧ t &&& 0x03 = 0 ∧ 3 + s < b.length ∧ udlPos < b.length ∧
    (Udhi t → udlPos + 1 < b.length ∧
      (b.getD (udlPos + 1) 0).toNat + 1 ≤ b.length - (udlPos + 1))

instance (b : List UInt8) : Decidable (Grammar b) := inferInstanceAs (Decidable (_ ∧ _))

theorem drop_eq_getD_cons {b : List UInt8} {i : ℕ} (h : i < b.length) :
    b.drop i = b.getD i 0 :: b.drop (i + 1) := by
  rw [List.drop_eq_getElem_cons h, List.getD_eq_getElem?_getD, List.getElem?_eq_getElem h,
    Option.getD_some]

theorem drop_eq_take_append_drop (b : List UInt8) (i k : ℕ) :
    b.drop i = (b.drop i).take k ++ b.drop (i + k) := by
  rw [← List.drop_drop, List.take_append_drop]

/-- Octets that satisfy the grammar are those of a message. -/
theorem exists_deliver_of_grammar {b : List UInt8} (h : Grammar b) :
    ∃ d : Deliver, d.octets = b := by
  obtain ⟨hs, hmti, hoa, hudl, hudh⟩ := h
  generalize hseq : (b.getD 0 0).toNat = s at *
  generalize hneq : ((b.getD (2 + s) 0).toNat + 1) / 2 = k at *
  have hs256 : s < 256 := hseq ▸ UInt8.toNat_lt _
  refine ⟨{ smsc := (b.drop 1).take s, pduType := b.getD (1 + s) 0, oaLen := b.getD (2 + s) 0
            oaType := b.getD (3 + s) 0, oa := (b.drop (4 + s)).take k, pid := b.getD (4 + s + k) 0
            dcs := b.getD (4 + s + k + 1) 0, scts := (b.drop (4 + s + k + 1 + 1)).take 7
            udl := b.getD (4 + s + k + 1 + 1 + 7) 0, ud := b.drop (4 + s + k + 1 + 1 + 7 + 1)
            smsc_lt := ?_, mti := hmti, oa_length := ?_, scts_length := ?_, udh_le := ?_ }, ?_⟩
  · rw [List.length_take]
    omega
  · rw [List.length_take, List.length_drop, hneq]
    omega
  · rw [List.length_take, List.length_drop]
    omega
  · intro hu
    obtain ⟨hlt, hle⟩ := hudh hu
    rw [drop_eq_getD_cons hlt, List.getD_cons_zero, ← drop_eq_getD_cons hlt, List.length_drop]
    exact ⟨by rw [drop_eq_getD_cons hlt]; exact List.cons_ne_nil _ _, hle⟩
  · have hlen : ((b.drop 1).take s).length = s := by
      rw [List.length_take, List.length_drop]
      omega
    have h0 : UInt8.ofNat s = b.getD 0 0 := by rw [← hseq, UInt8.ofNat_toNat]
    simp only [Deliver.octets, Deliver.tail, hlen, h0]
    -- from the back, every field is put in front of what follows it
    have hsucc : ∀ i, i < b.length → ∀ j, j = i + 1 → b.getD i 0 :: b.drop j = b.drop i :=
      fun i hi j hj => by rw [hj, ← drop_eq_getD_cons hi]
    rw [hsucc _ hudl _ rfl, ← drop_eq_take_append_drop, hsucc _ (by omega) _ rfl,
      hsucc _ (by omega) _ rfl, ← drop_eq_take_append_drop, hsucc _ hoa _ (by omega),
      hsucc _ (by omega) _ (by omega), hsucc _ hs _ (by omega), List.cons_append,
      ← drop_eq_take_append_drop, hsucc _ (by omega) _ rfl, List.drop_zero]

/-! ### Every other input is an error -/

theorem exists_decodeSMSC (raw : List UInt8) : ∃ smsc,
    (decodeSMSC raw : Outcome DecodeErr (List UInt8 × ℕ)) =
      .ok (smsc, if raw = [] then 0 else 1 + (raw.getD 0 0).toNat) := by
  cases raw with
  | nil => exact ⟨[], rfl⟩
  | cons len raw =>
    rw [if_neg (List.cons_ne_nil _ _), List.getD_cons_zero]
    by_cases hfit : len.toNat ≤ raw.length
    · have hlen : len.toNat = (raw.take len.toNat).length := by rw [List.length_take]; omega
      have hraw : len :: raw = len :: raw.take len.toNat ++ raw.drop len.toNat := by
        rw [List.cons_append, List.take_append_drop]
      exact ⟨_, by rw [decodeSMSC_eq hraw hlen, ← hlen]⟩
    · refine ⟨[], ?_⟩
      unfold decodeSMSC
      rw [if_neg (by simp), index_of_drop (show List.drop 0 _ = len :: raw from rfl), ok_bind]
      dsimp only
      rw [if_neg (by omega), if_pos (by rw [List.length_cons]; omega)]
      rfl

theorem failIf_bind_of_true {β : Type} {c : Prop} [Decidable c] (h : c) (e : DecodeErr)
    (f : Unit → Outcome DecodeErr β) : ∃ e', (failIf c e >>= f) = .err e' :=
  ⟨e, by rw [failIf_of_true h, err_bind]⟩

theorem index_eq_getD {b : List UInt8} {i : ℕ} (h : i < b.length) :
    (index b i : Outcome DecodeErr UInt8) = .ok (b.getD i 0) :=
  index_of_drop (drop_eq_getD_cons h)

/-- The header check fails with an error if the header does not fit. -/
theorem cutUDH_of_not_fits {t : UInt8} (enc : Encoding) {ud : List UInt8} (udl : ℕ) (ht : Udhi t)
    (h : ¬ (ud ≠ [] ∧ (ud.getD 0 0).toNat + 1 ≤ ud.length)) :
    ∃ e, cutUDH t enc ud udl = .err e := by
  rw [cutUDH, if_pos (show _ = _ from ht)]
  cases ud with
  | nil => exact ⟨.emptyUD, rfl⟩
  | cons l rest =>
    have hlen : (l :: rest).length < l.toNat + 1 := by
      by_contra hle
      exact h ⟨List.cons_ne_nil _ _, by rw [List.getD_cons_zero]; omega⟩
    rw [failIf_of_false (by simp), ok_bind,
      index_of_drop (show List.drop 0 _ = l :: rest from rfl), ok_bind]
    exact failIf_bind_of_true hlen _ _

/-- **Octets outside the grammar are an error**, never a panic: each check of the decoder covers
the next index. -/
theorem decodeOctets_of_not_grammar {raw : List UInt8} (pduHash : List UInt8)
    (h : ¬ Grammar raw) : ∃ e, decodeOctets raw pduHash = .err e := by
  obtain ⟨smsc, hsmsc⟩ := exists_decodeSMSC raw
  unfold decodeOctets
  rw [hsmsc, ok_bind]
  dsimp only
  generalize hs : (raw.getD 0 0).toNat = s
  by_cases c0 : raw.length ≤ if raw = [] then 0 else 1 + s
  · exact failIf_bind_of_true c0 _ _
  have hne : raw ≠ [] := by
    rintro rfl
    exact c0 (Nat.le_refl 0)
  rw [if_neg hne] at c0 ⊢
  have hpos : 1 + s + 1 + 1 = 3 + s := by omega
  rw [failIf_of_false c0, ok_bind, index_eq_getD (by omega), ok_bind]
  by_cases c1 : raw.getD (1 + s) 0 &&& 0x03 ≠ 0x00
  · exact failIf_bind_of_true c1 _ _
  rw [failIf_of_false c1, ok_bind]
  by_cases c2 : raw.length < 1 + s + 1 + 2
  · exact failIf_bind_of_true c2 _ _
  rw [failIf_of_false c2, ok_bind, index_eq_getD (by omega), ok_bind, index_eq_getD (by omega),
    ok_bind, hpos, show 1 + s + 1 = 2 + s by omega, show 3 + s + 1 = 4 + s by omega]
  generalize hk : ((raw.getD (2 + s) 0).toNat + 1) / 2 = k
  by_cases c3 : raw.length < 4 + s + k
  · exact failIf_bind_of_true c3 _ _
  rw [failIf_of_false c3, ok_bind, slice_of_le (by omega) (by omega), ok_bind, decodeBCDAddress_eq,
    ok_bind]
  by_cases c4 : raw.length ≤ 4 + s + k
  · exact failIf_bind_of_true c4 _ _
  rw [failIf_of_false c4, ok_bind]
  by_cases c5 : raw.length ≤ 4 + s + k + 1
  · exact failIf_bind_of_true c5 _ _
  rw [failIf_of_false c5, ok_bind, index_eq_getD (by omega), ok_bind]
  by_cases c6 : raw.length < 4 + s + k + 1 + 1 + 7
  · exact failIf_bind_of_true c6 _ _
  have hscts : ((raw.take (4 + s + k + 1 + 1 + 7)).drop (4 + s + k + 1 + 1)).length = 7 := by
    rw [List.length_drop, List.length_take]
    omega
  rw [failIf_of_false c6, ok_bind, slice_of_le (by omega) (by omega), ok_bind,
    decodeSCTS_eq hscts, ok_bind]
  by_cases c7 : raw.length ≤ 4 + s + k + 1 + 1 + 7
  · exact failIf_bind_of_true c7 _ _
  rw [failIf_of_false c7, ok_bind, index_eq_getD (by omega), ok_bind,
    slice_of_le (by omega) le_rfl, ok_bind, List.take_length]
  -- only the header is left to be at fault
  have hudh : ¬ (Udhi (raw.getD (1 + s) 0) → 4 + s + k + 1 + 1 + 7 + 1 < raw.length ∧
      (raw.getD (4 + s + k + 1 + 1 + 7 + 1) 0).toNat + 1 ≤
        raw.length - (4 + s + k + 1 + 1 + 7 + 1)) := by
    intro hfits
    refine h ?_
    simp only [Grammar, hs, hk]
    exact ⟨by omega, not_not.mp c1, by omega, by omega, hfits⟩
  obtain ⟨hu, hnot⟩ := Classical.not_imp.mp hudh
  have hcut : ¬ (raw.drop (4 + s + k + 1 + 1 + 7 + 1) ≠ [] ∧
      ((raw.drop (4 + s + k + 1 + 1 + 7 + 1)).getD 0 0).toNat + 1 ≤
        (raw.drop (4 + s + k + 1 + 1 + 7 + 1)).length) := by
    rintro ⟨hne', hle⟩
    have hlt : 4 + s + k + 1 + 1 + 7 + 1 < raw.length := by
      by_contra hge
      exact hne' (List.drop_of_length_le (by omega))
    rw [List.length_drop, drop_eq_getD_cons hlt, List.getD_cons_zero] at hle
    exact hnot ⟨hlt, hle⟩
  obtain ⟨e, he⟩ := cutUDH_of_not_fits (dcsEncoding (raw.getD (4 + s + k + 1) 0))
    (raw.getD (4 + s + k + 1 + 1 + 7) 0).toNat hu hcut
  exact ⟨e, by rw [he, err_bind]⟩

/-- The octets of messages are those of the grammar. -/
theorem grammar_iff (b : List UInt8) : Grammar b ↔ ∃ d : Deliver, d.octets = b := by
  refine ⟨exists_deliver_of_grammar, ?_⟩
  rintro ⟨d, rfl⟩
  by_contra h
  obtain ⟨e, he⟩ := decodeOctets_of_not_grammar [] h
  rw [decodeOctets_octets] at he
  cases he

/-- What `DecodePDU` makes of the hex form of a message, in any letter case and with blanks around
it. -/
theorem decodePDU_octets (h : Host) {hexStr : List UInt8} {d : Deliver}
    (hhex : Hex.decodeString (trimSpace hexStr) = .ok d.octets) :
    decodePDU h hexStr = .ok (d.decoded (lit "sha256:" ++
      Hex.encodeToString (h.sum256 (trimSpace (toUpper h.caseTable hexStr))))) := by
  rw [← Hex.decodeString_trimSpace_toUpper h.caseTable] at hhex
  unfold decodePDU
  dsimp only
  rw [hhex]
  exact decodeOctets_octets d _

/-- A hex string whose octets are outside the grammar is an error. -/
theorem decodePDU_of_not_grammar (h : Host) {hexStr : List UInt8}
    (hnot : ∀ b, Hex.decodeString (trimSpace hexStr) = .ok b → ¬ Grammar b) :
    ∃ e, decodePDU h hexStr = .err e := by
  unfold decodePDU
  dsimp only
  cases hdec : Hex.decodeString (trimSpace (toUpper h.caseTable hexStr)) with
  | error e => exact ⟨_, rfl⟩
  | ok b =>
    exact decodeOctets_of_not_grammar _
      (hnot b ((Hex.decodeString_trimSpace_toUpper h.caseTable hexStr b).mp hdec))

/-- **`DecodePDU` accepts exactly its grammar and never indexes out of range.** -/
theorem decodePDU_accepts_iff (h : Host) (hexStr : List UInt8) :
    decodePDU h hexStr ≠ .panic ∧
    ((∃ m, decodePDU h hexStr = .ok m) ↔
      (trimSpace hexStr).length % 2 = 0 ∧
      (∀ c ∈ trimSpace hexStr, (Hex.fromHexChar c).isSome) ∧
      ∃ b, Hex.decodeString (trimSpace hexStr) = .ok b ∧ Grammar b) := by
  by_cases hb : ∃ b, Hex.decodeString (trimSpace hexStr) = .ok b ∧ Grammar b
  · obtain ⟨b, hdec, hg⟩ := hb
    obtain ⟨heven, hdigits⟩ := (Hex.exists_decodeString_iff _).mp ⟨b, hdec⟩
    obtain ⟨d, rfl⟩ := exists_deliver_of_grammar hg
    rw [decodePDU_octets h hdec]
    exact ⟨nofun, fun _ => ⟨heven, hdigits, _, hdec, hg⟩, fun _ => ⟨_, rfl⟩⟩
  · obtain ⟨e, he⟩ := decodePDU_of_not_grammar h fun b hdec hg => hb ⟨b, hdec, hg⟩
    rw [he]
    exact ⟨nofun, nofun, fun hin => absurd hin.2.2 hb⟩

end SmsGate.At
