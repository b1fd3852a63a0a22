import SmsGate.At.Equiv.UserData

/-!
# Alphanumeric senders

The length octet of an alphanumeric address counts semi-octets, and `n` septets fill `⌈7 n / 4⌉` of
them.  `decodeBCDAddress` takes this for a number of septets, which is always enough, and leaves it
to `unpackGSM7` to stop where the octets end.  They can end one septet too late: the padding behind
`8 k + 7` septets is a septet of its own.

* `fields_packGSM7`: what is read from packed septets, with and without the padding;
* `length_gsm7Runes_concat_zero`: a septet more is a character more;
* `decodePDU_alphanumeric_iff`: the sender of a message is the text that was packed unless the
  number of its septets is 7 modulo 8.
-/

namespace SmsGate.At

open Go Go.Bits Go.Utf8 Go.Strings Go.Outcome

/-- The semi-octets of `n` septets, the length octet of an alphanumeric address. -/
def semiOctets (n : ℕ) : ℕ := (7 * n + 3) / 4

/-! ### The septets that are read -/

theorem fields_succ (w : ℕ) (s : ℕ → Bool) (n : ℕ) :
    fields w s (n + 1) =
      fields w s n ++ [UInt8.ofNat (Nat.ofBits fun j : Fin w => s (w * n + j))] := by
  rw [fields, List.range_succ, List.map_append]
  rfl

/-- The septets that were packed are read back. -/
theorem fields_packGSM7 {c : List UInt8} (hc : Septets c) :
    fields 7 (stream 8 (packGSM7 c)) c.length = c := by
  have hunpack : (unpackGSM7 (packGSM7 c) c.length : Outcome DecodeErr (List UInt8)) = .ok c :=
    unpackGSM7_packGSM7 hc
  rw [unpackGSM7_eq, length_packGSM7, Nat.min_eq_left (by omega)] at hunpack
  exact Outcome.ok.inj hunpack

/-- Behind `8 k + 7` septets there is room for one more, and its bits are the padding. -/
theorem fields_packGSM7_padding {c : List UInt8} (hc : Septets c) (hlen : c.length % 8 = 7) :
    fields 7 (stream 8 (packGSM7 c)) (c.length + 1) = c ++ [0] := by
  have hpad : ∀ j : Fin 7, stream 8 (packGSM7 c) (7 * c.length + j) = false := by
    intro j
    have hj := j.isLt
    rw [packGSM7_eq hc, stream_fields (by decide) (by decide) _ (by omega)]
    exact stream_of_le (by decide) (by omega)
  rw [fields_succ, fields_packGSM7 hc]
  simp only [hpad]
  rfl

/-- What `decodeBCDAddress` reads: as many septets as the octets hold. -/
theorem min_semiOctets (n : ℕ) :
    min (semiOctets n) ((n * 7 + 7) / 8 * 8 / 7) = if n % 8 = 7 then n + 1 else n := by
  have hoctets : (n * 7 + 7) / 8 = n - n / 8 := by omega
  rw [hoctets, semiOctets]
  split_ifs <;> omega

theorem address_packGSM7 {c : List UInt8} (hc : Septets c) :
    address (packGSM7 c) (semiOctets c.length) 0xD0 =
      encodeRunes (gsm7Runes (if c.length % 8 = 7 then c ++ [0] else c)) := by
  rw [address, if_pos rfl, length_packGSM7, min_semiOctets]
  split_ifs with hlen
  · rw [fields_packGSM7_padding hc hlen]
  · rw [fields_packGSM7 hc]

/-! ### The text of one septet more -/

/-- The septet 0 is `@`, or a space if an escape stands in front of it. -/
theorem length_gsm7Runes_concat_zero (c : List UInt8) :
    (gsm7Runes (c ++ [0])).length = (gsm7Runes c).length + 1 := by
  induction c using gsm7Runes.induct with
  | case1 => rfl
  | case2 =>
    simp only [List.singleton_append, gsm7Runes]
    rfl
  | case3 x hx =>
    rw [List.singleton_append, gsm7Runes_cons_of_ne hx, List.length_append]
    simp only [gsm7Runes, if_neg hx]
    rfl
  | case4 x cs ih =>
    rw [List.cons_append, List.cons_append, gsm7Runes_escape, gsm7Runes_escape, List.length_cons,
      List.length_cons, ih]
  | case5 c x cs hc ih =>
    rw [List.cons_append, gsm7Runes_cons_of_ne hc, gsm7Runes_cons_of_ne hc, List.length_append,
      List.length_append, ih, Nat.add_assoc]

/-- The sender is the text of the septets unless the padding was read too. -/
theorem address_packGSM7_eq_iff {c : List UInt8} (hc : Septets c) :
    encodeRunes (gsm7Runes c) = address (packGSM7 c) (semiOctets c.length) 0xD0 ↔
      c.length % 8 ≠ 7 := by
  rw [address_packGSM7 hc]
  split_ifs with hlen
  · refine iff_of_false (fun heq => ?_) (not_not.mpr hlen)
    have hruns := congrArg List.length (encodeRunes_injective heq)
    rw [length_gsm7Runes_concat_zero] at hruns
    omega
  · exact iff_of_true rfl hlen

/-- **When an alphanumeric sender is decoded exactly.**  Take any septets whose semi-octets a length
octet can count, and any DELIVER with this length octet, type 0xD0 and the packed septets for its
originating address.  `DecodePDU` accepts it, and the sender is the text of the septets if and only
if their number is not 7 modulo 8. -/
theorem decodePDU_alphanumeric_iff (h : Host) (hexStr : List UInt8) (d : Deliver) (c : List UInt8)
    (hc : Septets c) (hlen : semiOctets c.length ≤ 255)
    (hoaLen : d.oaLen = UInt8.ofNat (semiOctets c.length)) (hoaType : d.oaType = 0xD0)
    (hoa : d.oa = packGSM7 c) (hhex : Hex.decodeString (trimSpace hexStr) = .ok d.octets) :
    ∃ m, decodePDU h hexStr = .ok m ∧
      ((decodeGSM7Text c : Outcome DecodeErr (List UInt8)) = .ok m.sender ↔ c.length % 8 ≠ 7) := by
  refine ⟨_, decodePDU_octets h hhex, ?_⟩
  have hnum : d.oaLen.toNat = semiOctets c.length := by
    rw [hoaLen, toNat_ofNat_of_lt (by omega)]
  have hsender : (d.decoded (lit "sha256:" ++ Hex.encodeToString
      (h.sum256 (trimSpace (toUpper h.caseTable hexStr))))).sender =
        address (packGSM7 c) (semiOctets c.length) 0xD0 := by
    rw [Deliver.decoded, hoa, hnum, hoaType]
  rw [hsender, decodeGSM7Text_eq, Outcome.ok.injEq]
  exact address_packGSM7_eq_iff hc

/-- A message from an alphanumeric sender, for fixed inputs. -/
def sampleSender (c : List UInt8) (hlen : semiOctets c.length ≤ 255) : Deliver :=
  { sampleMessage 0x00 1 [0x41] with
    oaLen := UInt8.ofNat (semiOctets c.length)
    oaType := 0xD0
    oa := packGSM7 c
    oa_length := by
      rw [length_packGSM7, toNat_ofNat_of_lt (by omega), semiOctets]
      omega }

/-- Four septets: the sender `Bank` is read as `Bank`. -/
theorem decodePDU_alphanumeric_iff_bank : ∃ m,
    decodePDU Host.sample (lit "000407D0C2B07B0D0000421010214365000141") = .ok m ∧
      (decodeGSM7Text (lit "Bank") : Outcome DecodeErr (List UInt8)) = .ok m.sender := by
  obtain ⟨m, hm, hiff⟩ := decodePDU_alphanumeric_iff Host.sample
    (lit "000407D0C2B07B0D0000421010214365000141") (sampleSender (lit "Bank") (by decide))
    (lit "Bank") (by decide +kernel) (by decide) rfl rfl rfl (by decide)
  exact ⟨m, hm, hiff.mpr (by decide)⟩

/-- Seven septets: the sender `Gateway` is read as `Gateway@`. -/
theorem not_decodePDU_alphanumeric : ∃ m,
    Hex.decodeString (lit "00040DD0C730BD7C0FE7010000421010214365000141") =
      .ok (sampleSender (lit "Gateway") (by decide)).octets ∧
    decodePDU Host.sample (lit "00040DD0C730BD7C0FE7010000421010214365000141") = .ok m ∧
    (decodeGSM7Text (lit "Gateway") : Outcome DecodeErr (List UInt8)) = .ok (lit "Gateway") ∧
    m.sender = lit "Gateway@" := by
  have hhex : Hex.decodeString (lit "00040DD0C730BD7C0FE7010000421010214365000141") =
      .ok (sampleSender (lit "Gateway") (by decide)).octets := by decide
  exact ⟨_, hhex, decodePDU_octets Host.sample (d := sampleSender (lit "Gateway") (by decide))
    (by decide), by decide +kernel, by decide⟩

end SmsGate.At
