import SmsGate.At.Equiv.Concat
import SmsGate.At.Equiv.Encode

/-!
# What `DecodePDU` makes of what the encoders write

The other end of `EncodePDU` is a modem that stores an SMS-DELIVER.  If one is put together from the
encoders of this package, `DecodePDU` gives back what went in:

* `decodePDU_gsm7_roundtrip`: addresses and septets without a header;
* `decodePDU_ucs2_roundtrip`: UTF-16 with a header of any length, or without one.
-/

namespace SmsGate.At

open Go Go.Bits Go.Utf8 Go.Strings Go.Outcome

/-! ### GSM 7-bit -/

/-- The type octet and the semi-octets of a service centre. -/
def smscData : Option (List UInt8) → List UInt8
  | none => []
  | some smsc => (encodeBCDAddress (0x2B :: smsc)).2.1 :: (encodeBCDAddress (0x2B :: smsc)).2.2

/-- The octets of a DELIVER without a header: the service centre behind its number of octets, the
type octet, the sender behind its number of digits, PID, DCS, time stamp, and the septets behind
their number. -/
def gsm7DeliverOctets (smsc : Option (List UInt8)) (sender : List UInt8) (pduType pid : UInt8)
    (scts c : List UInt8) : List UInt8 :=
  let (numDigits, addrType, data) := encodeBCDAddress (0x2B :: sender)
  [UInt8.ofNat (smscData smsc).length] ++ smscData smsc ++
    [pduType, UInt8.ofNat numDigits, addrType] ++ data ++ [pid, 0x00] ++ scts ++
    [UInt8.ofNat c.length] ++ packGSM7 c

theorem length_smscData_le {smsc : Option (List UInt8)} (h : ∀ ds ∈ smsc, ds.length ≤ 508) :
    (smscData smsc).length < 256 := by
  cases smsc with
  | none => decide
  | some ds =>
    have hds : ds.length ≤ 508 := h ds rfl
    have hlen : (encodeBCDAddress (0x2B :: ds)).2.2.length = (ds.length + 1) / 2 :=
      length_encodeBCDAddress (0x2B :: ds)
    rw [smscData, List.length_cons, hlen]
    omega

theorem smscAddress_smscData {smsc : Option (List UInt8)}
    (h : ∀ ds ∈ smsc, ∀ d ∈ ds, isDigit d) :
    smscAddress (smscData smsc) = (smsc.map (0x2B :: ·)).getD [] := by
  cases smsc with
  | none => rfl
  | some ds =>
    have hlen : (encodeBCDAddress (0x2B :: ds)).2.2.length = (ds.length + 1) / 2 :=
      length_encodeBCDAddress (0x2B :: ds)
    rw [smscData, smscAddress, address_encodeBCDAddress (h ds rfl) (by omega), Option.map_some,
      Option.getD_some]

/-- The text of septets that fill the user data. -/
theorem bodyText_packGSM7 {c : List UInt8} (hc : Septets c) :
    bodyText .gsm7 (packGSM7 c) c.length = encodeRunes (gsm7Runes c) := by
  have hunpack : (unpackGSM7 (packGSM7 c) c.length : Outcome DecodeErr (List UInt8)) = .ok c :=
    unpackGSM7_packGSM7 hc
  rw [unpackGSM7_eq] at hunpack
  injection hunpack with hunpack
  rw [bodyText, hunpack]

/-- The same message as a record. -/
def gsm7Deliver (smsc : Option (List UInt8)) (sender : List UInt8) (pduType pid : UInt8)
    (scts c : List UInt8) (hsmsc : ∀ ds ∈ smsc, ds.length ≤ 508) (hlen : sender.length ≤ 255)
    (hmti : pduType &&& 0x03 = 0) (hudhi : ¬ Udhi pduType) (hscts : scts.length = 7) : Deliver where
  smsc := smscData smsc
  pduType := pduType
  oaLen := UInt8.ofNat (encodeBCDAddress (0x2B :: sender)).1
  oaType := (encodeBCDAddress (0x2B :: sender)).2.1
  oa := (encodeBCDAddress (0x2B :: sender)).2.2
  pid := pid
  dcs := 0x00
  scts := scts
  udl := UInt8.ofNat c.length
  ud := packGSM7 c
  smsc_lt := length_smscData_le hsmsc
  mti := hmti
  oa_length := by
    have hlt : (encodeBCDAddress (0x2B :: sender)).1 < 256 := Nat.lt_succ_of_le hlen
    rw [length_encodeBCDAddress, toNat_ofNat_of_lt hlt]
  scts_length := hscts
  udh_le hu := absurd hu hudhi

/-- **A plain GSM7 message is read back.**  For every service centre, sender, type octet of a
DELIVER without a header, PID, time stamp and septets, whatever their number, the octets put
together by the encoders are accepted, and give the addresses and the text of the septets. -/
theorem decodePDU_gsm7_roundtrip (h : Host) (hexStr : List UInt8) (smsc : Option (List UInt8))
    (sender : List UInt8) (pduType pid : UInt8) (scts c : List UInt8)
    (hsmsc : ∀ ds ∈ smsc, (∀ d ∈ ds, isDigit d) ∧ ds.length ≤ 508)
    (hsender : ∀ d ∈ sender, isDigit d) (hlen : sender.length ≤ 255)
    (hmti : pduType &&& 0x03 = 0) (hudhi : ¬ Udhi pduType) (hscts : scts.length = 7)
    (hc : Septets c) (hclen : c.length ≤ 255)
    (hhex : Hex.decodeString (trimSpace hexStr) =
      .ok (gsm7DeliverOctets smsc sender pduType pid scts c)) :
    ∃ m, decodePDU h hexStr = .ok m ∧ m.smsc = (smsc.map (0x2B :: ·)).getD [] ∧
      m.sender = 0x2B :: sender ∧
      (decodeGSM7Text c : Outcome DecodeErr (List UInt8)) = .ok m.body := by
  obtain ⟨d, hd⟩ : ∃ d, d = gsm7Deliver smsc sender pduType pid scts c
      (fun ds hds => (hsmsc ds hds).2) hlen hmti hudhi hscts := ⟨_, rfl⟩
  have hoctets : gsm7DeliverOctets smsc sender pduType pid scts c = d.octets := by
    rw [hd]
    simp only [gsm7DeliverOctets, Deliver.octets, Deliver.tail, gsm7Deliver, List.append_assoc,
      List.cons_append, List.nil_append]
  have hheader : d.headerLen = 0 := by
    rw [hd, Deliver.headerLen]
    exact if_neg hudhi
  have hdcs : dcsEncoding d.dcs = .gsm7 := by
    rw [hd]
    exact show dcsEncoding 0x00 = .gsm7 by decide
  have hpayload : d.payload = packGSM7 c := by
    rw [Deliver.payload, hheader, List.drop_zero, hd]
    rfl
  have hpayloadLen : d.payloadLen = c.length := by
    have hudl : d.udl.toNat = c.length := by
      rw [hd]
      exact toNat_ofNat_of_lt (by omega)
    rw [Deliver.payloadLen, hdcs]
    dsimp only
    rw [hheader, hudl]
    omega
  rw [hoctets] at hhex
  refine ⟨_, decodePDU_octets h hhex, ?_, ?_, ?_⟩
  · rw [Deliver.decoded, hd]
    exact smscAddress_smscData fun ds hds => (hsmsc ds hds).1
  · have hnum : (UInt8.ofNat (encodeBCDAddress (0x2B :: sender)).1).toNat = sender.length :=
      toNat_ofNat_of_lt (Nat.lt_succ_of_le hlen)
    rw [Deliver.decoded, hd]
    exact address_encodeBCDAddress hsender hnum.ge
  · rw [Deliver.decoded, hdcs, hpayload, hpayloadLen, bodyText_packGSM7 hc, decodeGSM7Text_eq]

/-- An even number of digits in the service centre and an odd one in the sender. -/
theorem decodePDU_gsm7_roundtrip_hello : ∃ m,
    decodePDU Host.sample (lit "07914477581006500405912143F500004210102143650005E8329BFD06") =
      .ok m ∧ m.smsc = lit "+447785016005" ∧ m.sender = lit "+12345" ∧ m.body = lit "hello" := by
  obtain ⟨m, hm, hsmsc, hsender, hbody⟩ := decodePDU_gsm7_roundtrip Host.sample
    (lit "07914477581006500405912143F500004210102143650005E8329BFD06")
    (some (lit "447785016005")) (lit "12345") 0x04 0x00
    [0x42, 0x10, 0x10, 0x21, 0x43, 0x65, 0x00] (lit "hello") (by decide +kernel)
    (by decide +kernel) (by decide) (by decide) (by decide) (by decide) (by decide +kernel)
    (by decide) (by decide +kernel)
  have htext : (decodeGSM7Text (lit "hello") : Outcome DecodeErr (List UInt8)) =
      .ok (lit "hello") := by decide +kernel
  rw [htext] at hbody
  exact ⟨m, hm, hsmsc, hsender, (Outcome.ok.inj hbody).symm⟩

/-! ### UCS2 -/

theorem units16_flatMap (us : List UInt16) : units16 (us.flatMap fun u : UInt16 =>
    [UInt8.ofNat (u.toNat / 256), UInt8.ofNat u.toNat]) = us := by
  induction us with
  | nil => rfl
  | cons u us ih =>
    have hu : UInt16.ofNat ((UInt8.ofNat (u.toNat / 256)).toNat * 256 +
        (UInt8.ofNat u.toNat).toNat) = u := by
      have hlt := u.toNat_lt
      rw [UInt8.toNat_ofNat', UInt8.toNat_ofNat', ← UInt16.toNat_inj, UInt16.toNat_ofNat']
      omega
    rw [units16] at ih
    rw [List.flatMap_cons, List.cons_append, List.singleton_append, units16, pairs, hu, ih]

/-- `decodeUCS2` undoes `encodeUCS2` on valid UTF-8. -/
theorem encodeRunes_decode_encodeUCS2 {s : List UInt8} (hs : Valid s) :
    encodeRunes (Utf16.decode (units16 (encodeUCS2 s))) = s := by
  rw [encodeUCS2, units16_flatMap, Utf16.decode_encode]
  exact hs

/-- **A UCS2 message is read back, with a header or without.**  The decoder takes the number of
octets behind the header for a number of characters, doubles it, and cuts it down to what there is;
when nothing follows the text, that is the text. -/
theorem decodePDU_ucs2_roundtrip (h : Host) (hexStr : List UInt8) (d : Deliver)
    (hdr s : List UInt8) (hs : Valid s)
    (hhdr : hdr = [] ∧ ¬ Udhi d.pduType ∨
      hdr.length = (hdr.getD 0 0).toNat + 1 ∧ Udhi d.pduType)
    (hdcs : d.dcs = 0x08) (hmax : hdr.length + (encodeUCS2 s).length ≤ 255)
    (hudl : d.udl = UInt8.ofNat (hdr.length + (encodeUCS2 s).length))
    (hud : d.ud = hdr ++ encodeUCS2 s)
    (hhex : Hex.decodeString (trimSpace hexStr) = .ok d.octets) :
    ∃ m, decodePDU h hexStr = .ok m ∧ m.body = s := by
  have hheader : d.headerLen = hdr.length := by
    rcases hhdr with ⟨rfl, hudhi⟩ | ⟨hfst, hudhi⟩
    · rw [Deliver.headerLen, if_neg hudhi]
      rfl
    · rw [Deliver.headerLen, if_pos hudhi, hud, List.getD_append _ _ _ _ (by omega), ← hfst]
  have hudlNat : d.udl.toNat = hdr.length + (encodeUCS2 s).length := by
    rw [hudl, toNat_ofNat_of_lt (by omega)]
  have hpayload : d.payload = encodeUCS2 s := by
    rw [Deliver.payload, hheader, hud, List.drop_left]
  have henc : dcsEncoding d.dcs = .ucs2 := by rw [hdcs]; decide
  have hpayloadLen : d.payloadLen = (encodeUCS2 s).length := by
    rw [Deliver.payloadLen, henc]
    dsimp only
    rw [hudlNat, hheader, Nat.add_sub_cancel_left]
  refine ⟨_, decodePDU_octets h hhex, ?_⟩
  change bodyText (dcsEncoding d.dcs) d.payload d.payloadLen = s
  rw [henc, hpayload, hpayloadLen, bodyText, List.take_of_length_le (by omega),
    encodeRunes_decode_encodeUCS2 hs]

/-- A part with the given header and a text in UCS2, for fixed inputs. -/
def sampleUCS2 (hdr s : List UInt8) (hhdr : hdr.length = (hdr.getD 0 0).toNat + 1) : Deliver :=
  { samplePart hdr [] hhdr.symm with
    dcs := 0x08
    udl := UInt8.ofNat (hdr.length + (encodeUCS2 s).length)
    ud := hdr ++ encodeUCS2 s
    udh_le := fun _ => by
      rw [List.getD_append _ _ _ _ (by omega), ← hhdr, List.length_append]
      exact ⟨List.append_ne_nil_of_left_ne_nil (List.ne_nil_of_length_pos (by omega)) _, by omega⟩ }

/-- The second part of a message of two, with a surrogate pair. -/
theorem decodePDU_ucs2_roundtrip_part : ∃ m,
    decodePDU Host.sample (lit "00440291210008421010214365000C0500034202020436D83DDE00") = .ok m ∧
      m.body = encodeRunes ['ж', '😀'] :=
  decodePDU_ucs2_roundtrip Host.sample _
    (sampleUCS2 [0x05, 0x00, 0x03, 0x42, 0x02, 0x02] (encodeRunes ['ж', '😀']) (by decide))
    [0x05, 0x00, 0x03, 0x42, 0x02, 0x02] (encodeRunes ['ж', '😀']) (valid_encodeRunes _)
    (.inr ⟨by decide, by decide⟩) rfl (by decide +kernel) rfl rfl (by decide +kernel)

end SmsGate.At
