import SmsGate.At.Equiv.Septets

/-!
# What the nested decoders of `DecodePDU` return

Texts, addresses, the service centre and the time stamp.  Each decoder indexes with counts that
come from the message; each is shown to return a value for every input, and what it returns is
given by a function on lists without positions:

* `decodeGSM7Text_eq`: the runes of a list of septets (`gsm7Runes`);
* `decodeUCS2_eq`: the runes of the UTF-16 units (`units16`);
* `decodeBCDAddress_eq`: the address, by type (`address`);
* `decodeSMSC_eq`, `decodeSCTS_eq`.
-/

namespace SmsGate.At

open Go Go.Utf8 Go.Outcome

variable {ε : Type}

/-! ### GSM 7-bit text -/

/-- The rune of a septet of the basic table, none from 0x80 on. -/
def basicRune (c : UInt8) : List Char := gsm7Charset[c.toNat]?.toList

theorem length_basicRune {c : UInt8} (h : c.toNat < 128) : (basicRune c).length = 1 := by
  have hlen : gsm7Charset.length = 128 := rfl
  rw [basicRune, List.getElem?_eq_getElem (by omega)]
  rfl

/-- The rune of a septet after an escape; an unknown code is a space. -/
def extensionRune (x : UInt8) : Char := (gsm7Extension.lookup x).getD ' '

/-- The runes of a list of septets; an escape at the end is dropped. -/
def gsm7Runes : List UInt8 → List Char
  | [] => []
  | [c] => if c = 0x1B then [] else basicRune c
  | c :: x :: cs =>
    if c = 0x1B then extensionRune x :: gsm7Runes cs else basicRune c ++ gsm7Runes (x :: cs)

theorem gsm7Runes_cons_of_ne {c : UInt8} (hc : c ≠ 0x1B) (cs : List UInt8) :
    gsm7Runes (c :: cs) = basicRune c ++ gsm7Runes cs := by
  cases cs with
  | nil => simp only [gsm7Runes, if_neg hc, List.append_nil]
  | cons x cs => rw [gsm7Runes, if_neg hc]

theorem gsm7Runes_escape (x : UInt8) (cs : List UInt8) :
    gsm7Runes (0x1B :: x :: cs) = extensionRune x :: gsm7Runes cs := by
  rw [gsm7Runes, if_pos rfl]

theorem decodeGSM7TextLoop_eq (codes : List UInt8) : ∀ (fuel i : ℕ) (sb : List UInt8),
    codes.length ≤ i + fuel →
    (decodeGSM7TextLoop codes fuel i sb : Outcome ε (List UInt8)) =
      .ok (sb ++ encodeRunes (gsm7Runes (codes.drop i))) := by
  intro fuel
  induction fuel with
  | zero =>
    intro i sb hfuel
    rw [decodeGSM7TextLoop, List.drop_of_length_le (by omega)]
    simp [gsm7Runes]
  | succ fuel ih =>
    intro i sb hfuel
    rw [decodeGSM7TextLoop]
    by_cases hi : i < codes.length
    · rw [if_pos hi, index_of_lt hi, ok_bind, List.drop_eq_getElem_cons hi]
      by_cases hesc : codes[i] = 0x1B
      · rw [if_pos hesc, hesc]
        by_cases hi1 : i + 1 < codes.length
        · -- an escape and its code
          rw [if_pos hi1, index_of_lt hi1, ok_bind, List.drop_eq_getElem_cons hi1,
            gsm7Runes_escape, encodeRunes_cons, extensionRune]
          cases hlook : gsm7Extension.lookup codes[i + 1] with
          | some r =>
            dsimp only
            rw [ih _ _ (by omega), List.append_assoc, Option.getD_some]
          | none =>
            dsimp only
            rw [ih _ _ (by omega), List.append_assoc, Option.getD_none]
            rfl
        · rw [if_neg hi1, ih _ _ (by omega), List.drop_of_length_le (by omega)]
          simp [gsm7Runes]
      · rw [if_neg hesc, gsm7Runes_cons_of_ne hesc, basicRune, encodeRunes_append]
        by_cases hbasic : codes[i].toNat < gsm7Charset.length
        · rw [if_pos hbasic, index_of_lt hbasic, ok_bind, ih _ _ (by omega),
            List.getElem?_eq_getElem hbasic]
          simp
        · rw [if_neg hbasic, ih _ _ (by omega), List.getElem?_eq_none (by omega)]
          rfl
    · rw [if_neg hi, List.drop_of_length_le (by omega)]
      simp [gsm7Runes]

theorem decodeGSM7Text_eq (codes : List UInt8) :
    (decodeGSM7Text codes : Outcome ε (List UInt8)) = .ok (encodeRunes (gsm7Runes codes)) := by
  rw [decodeGSM7Text, decodeGSM7TextLoop_eq codes _ _ _ (by omega), List.nil_append, List.drop_zero]

/-! ### UCS2 text -/

/-- The big-endian units of a list of octets; an octet without a partner is dropped. -/
def units16 (data : List UInt8) : List UInt16 :=
  pairs (fun hi lo => UInt16.ofNat (hi.toNat * 256 + lo.toNat)) data

theorem uint16At_eq {data : List UInt8} {off : ℕ} (h : off + 1 < data.length) :
    (uint16At data off : Outcome ε UInt16) =
      .ok (UInt16.ofNat (data[off].toNat * 256 + data[off + 1].toNat)) := by
  have h0 : 0 < (data.drop off).length := by rw [List.length_drop]; omega
  have h1 : 1 < (data.drop off).length := by rw [List.length_drop]; omega
  rw [uint16At, slice_of_le (by omega) le_rfl, ok_bind, List.take_length, index_of_lt h0, ok_bind,
    index_of_lt h1, ok_bind, List.getElem_drop, List.getElem_drop]
  rfl

theorem decodeUCS2_even {data : List UInt8} (h : data.length % 2 = 0) :
    ((List.range (data.length / 2)).mapM fun i => uint16At data (i * 2) : Outcome ε _) =
      .ok (units16 data) := by
  rw [units16, ← map_range_pairs]
  refine mapM_eq_ok fun i hi => ?_
  rw [List.mem_range] at hi
  rw [uint16At_eq (by omega)]
  simp [List.getD_eq_getElem?_getD, show i * 2 < data.length by omega,
    show i * 2 + 1 < data.length by omega]

theorem decodeUCS2_eq (data : List UInt8) :
    (decodeUCS2 data : Outcome ε (List UInt8)) =
      .ok (encodeRunes (Utf16.decode (units16 data))) := by
  rw [decodeUCS2, units16, ← pairs_take_even, ← units16]
  by_cases hodd : data.length % 2 = 0
  · rw [if_neg (not_not.mpr hodd), ok_bind, hodd, Nat.sub_zero, List.take_length]
    dsimp only
    rw [decodeUCS2_even hodd]
    rfl
  · rw [if_pos hodd, slice_of_le (Nat.zero_le _) (by omega), ok_bind, List.drop_zero,
      show data.length % 2 = 1 by omega]
    dsimp only
    rw [decodeUCS2_even (by rw [List.length_take]; omega)]
    rfl

/-! ### Semi-octet addresses -/

/-- The nibbles of a list of octets, low nibble first. -/
def nibbles (data : List UInt8) : List UInt8 :=
  data.flatMap fun b => [b &&& 0x0F, (b >>> 4) &&& 0x0F]

/-- The digits of the first `n` nibbles, up to padding. -/
def bcdDigits (data : List UInt8) (n : ℕ) : List UInt8 :=
  (((nibbles data).take n).takeWhile (· ≠ 0x0F)).map (0x30 + ·)

theorem length_nibbles (data : List UInt8) : (nibbles data).length = 2 * data.length := by
  induction data with
  | nil => rfl
  | cons b bs ih =>
    rw [nibbles, List.flatMap_cons, List.length_append, ← nibbles, ih, List.length_cons]
    simp only [List.length_cons, List.length_nil]
    omega

theorem getElem?_nibbles (data : List UInt8) : ∀ i : ℕ, (nibbles data)[i]? =
    data[i / 2]?.map fun b : UInt8 =>
      if i % 2 = 0 then b &&& 0x0F else (b >>> (4 : UInt8)) &&& 0x0F := by
  induction data with
  | nil => intro i; rfl
  | cons b bs ih =>
    intro i
    rw [nibbles, List.flatMap_cons, ← nibbles]
    rcases i with _ | _ | i
    · rfl
    · rfl
    · rw [show (i + 1 + 1) / 2 = i / 2 + 1 by omega, show (i + 1 + 1) % 2 = i % 2 by omega]
      simpa using ih i

theorem decodeBCDLoop_eq (data : List UInt8) : ∀ (n i : ℕ) (sb : List UInt8),
    (decodeBCDLoop data n i sb : Outcome ε (List UInt8)) =
      .ok (sb ++ ((((nibbles data).drop i).take n).takeWhile (· ≠ 0x0F)).map (0x30 + ·)) := by
  intro n
  induction n with
  | zero => intro i sb; simp [decodeBCDLoop]
  | succ n ih =>
    intro i sb
    rw [decodeBCDLoop]
    by_cases hi : data.length ≤ i / 2
    · rw [if_pos hi, List.drop_of_length_le (by rw [length_nibbles]; omega)]
      simp
    · have hlt : i < (nibbles data).length := by rw [length_nibbles]; omega
      have hget := getElem?_nibbles data i
      have hhalf : i / 2 < data.length := by omega
      rw [List.getElem?_eq_getElem hlt, List.getElem?_eq_getElem hhalf, Option.map_some,
        Option.some_inj] at hget
      rw [if_neg hi, index_of_lt (by omega), ok_bind, List.drop_eq_getElem_cons hlt,
        List.take_succ_cons, hget]
      dsimp only
      split_ifs with hpar hpad hpad
      · rw [List.takeWhile_cons_of_neg (by simpa using hpad)]
        simp
      · rw [ih, List.takeWhile_cons_of_pos (by simpa using hpad)]
        simp
      · rw [List.takeWhile_cons_of_neg (by simpa using hpad)]
        simp
      · rw [ih, List.takeWhile_cons_of_pos (by simpa using hpad)]
        simp

/-- The address of a DELIVER by type: alphanumeric, or digits behind a `+` if international. -/
def address (data : List UInt8) (n : ℕ) (addrType : UInt8) : List UInt8 :=
  if addrType = 0xD0 then
    encodeRunes (gsm7Runes (Bits.fields 7 (Bits.stream 8 data) (min n (data.length * 8 / 7))))
  else (if addrType = 0x91 then [0x2B] else []) ++ bcdDigits data n

theorem address_national (data : List UInt8) (n : ℕ) :
    address data n 0x81 = bcdDigits data n :=
  rfl

theorem address_international (data : List UInt8) (n : ℕ) :
    address data n 0x91 = 0x2B :: bcdDigits data n :=
  rfl

theorem decodeBCDAddress_eq (data : List UInt8) (n : ℕ) (addrType : UInt8) :
    (decodeBCDAddress data n addrType : Outcome ε (List UInt8)) =
      .ok (address data n addrType) := by
  unfold decodeBCDAddress address
  split_ifs with hAlpha hIntl
  · rw [unpackGSM7_eq, ok_bind, decodeGSM7Text_eq]
  · rw [decodeBCDLoop_eq, List.drop_zero, bcdDigits]
  · rw [decodeBCDLoop_eq, List.drop_zero, bcdDigits]

/-! ### Service centre and time stamp -/

/-- The service centre of a PDU, from the octets behind its length octet. -/
def smscAddress : List UInt8 → List UInt8
  | [] => []
  | addrType :: data => address data (data.length * 2) addrType

/-- The service centre of a PDU that is long enough for it. -/
theorem decodeSMSC_eq {raw smsc rest : List UInt8} {len : UInt8} (hraw : raw = len :: smsc ++ rest)
    (hlen : len.toNat = smsc.length) :
    (decodeSMSC raw : Outcome ε (List UInt8 × ℕ)) =
      .ok (smscAddress smsc, 1 + smsc.length) := by
  subst hraw
  unfold decodeSMSC
  rw [if_neg (by simp), index_of_drop (show List.drop 0 _ = len :: (smsc ++ rest) by simp), ok_bind,
    hlen]
  cases smsc with
  | nil => rfl
  | cons addrType data =>
    dsimp only
    have hfit : ¬ (len :: (addrType :: data) ++ rest).length < 1 + (addrType :: data).length := by
      simp only [List.cons_append, List.length_cons, List.length_append]
      omega
    rw [if_neg (by simp), if_neg hfit,
      index_of_drop (show List.drop 1 _ = addrType :: (data ++ rest) by simp), ok_bind,
      slice_of_drop (show List.drop 2 _ = data ++ rest by simp) (by simp)
        (by rw [List.length_cons]; omega), ok_bind, decodeBCDAddress_eq]
    rfl

/-- The time of a seven-octet time stamp. -/
def sctsTime (data : List UInt8) : Time :=
  let field i := (swapNibbles (data.getD i 0)).toNat
  let tzRaw := swapNibbles (data.getD 6 0)
  let tzSign : ℤ := if tzRaw &&& 0x80 ≠ 0 then -1 else 1
  Time.date (2000 + field 0) (field 1) (field 2) (field 3) (field 4) (field 5)
    (tzSign * ((tzRaw &&& 0x7F).toNat : ℤ) * 15 * 60)

theorem decodeSCTS_eq {data : List UInt8} (h : data.length = 7) :
    (decodeSCTS data : Outcome ε Time) = .ok (sctsTime data) := by
  match data, h with
  | [_, _, _, _, _, _, _], _ => rfl

end SmsGate.At
