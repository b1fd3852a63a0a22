import SmsGate.At.Equiv.Concat

/-!
# What decides the body of a message

Two laws about pairs of messages that differ in one place.

* The message class is in the data coding scheme, next to the alphabet.  `dcsEncoding` knows the
  general group only without a class, so the body is read in another alphabet when a class is given
  and the alphabet is not the default one (`decodePDU_class_iff`).
* The length octet is there to end the body.  For UCS2 the decoder reads twice as many octets, so
  that what follows the message can become a part of it (`decodePDU_trailing_iff`).

Whether a PDU is accepted depends on neither (`grammar_withDCS`, `Deliver.extend`).
-/

namespace SmsGate.At

open Go Go.Bits Go.Utf8 Go.Strings Go.Outcome

/-- The text is the hex form of these octets, in any letter case and with blanks around it. -/
def HexOf (hexStr b : List UInt8) : Prop := Hex.decodeString (trimSpace hexStr) = .ok b

instance (hexStr b : List UInt8) : Decidable (HexOf hexStr b) :=
  inferInstanceAs (Decidable (_ = _))

theorem hexOf_encodeToStringUpper (b : List UInt8) : HexOf (Hex.encodeToStringUpper b) b := by
  have hdec := Hex.decodeString_encodeToStringUpper b
  have hblank : ∀ r ∈ ([] : List Char), isSpace r := nofun
  have htrim := Hex.trimSpace_digits hblank (Hex.isHexDigit_of_decodeString hdec) hblank
  rw [encodeRunes_nil, List.nil_append, List.append_nil] at htrim
  rw [HexOf, htrim, hdec]

/-! ### The data coding scheme of a PDU -/

/-- Where the data coding scheme stands: behind the service centre, the type octet, the originating
address and the PID. -/
def dcsPos (b : List UInt8) : ℕ :=
  let s := (b.getD 0 0).toNat
  4 + s + ((b.getD (2 + s) 0).toNat + 1) / 2 + 1

/-- The PDU with another data coding scheme. -/
def withDCS (b : List UInt8) (dcs : UInt8) : List UInt8 := b.set (dcsPos b) dcs

/-- The general data coding group, without compression: bits 7-5 are zero. -/
def GeneralGroup (dcs : UInt8) : Prop := dcs &&& 0xE0 = 0

instance (dcs : UInt8) : Decidable (GeneralGroup dcs) := inferInstanceAs (Decidable (_ = _))

/-- Bits 3-2 of the general group. -/
def alphabetBits (dcs : UInt8) : UInt8 := (dcs >>> 2) &&& 0x03

/-- Bit 4 of the general group: bits 1-0 are a class. -/
def classPresent (dcs : UInt8) : Bool := dcs &&& 0x10 ≠ 0

/-- The alphabet that `dcsEncoding` finds in the general group. -/
theorem dcsEncoding_general : ∀ dcs : UInt8, GeneralGroup dcs →
    dcsEncoding dcs =
      if classPresent dcs then .gsm7
      else if alphabetBits dcs = 1 then .eightBit
      else if alphabetBits dcs = 2 then .ucs2 else .gsm7 := by
  decide +kernel

theorem alphabetBits_cases : ∀ dcs : UInt8, alphabetBits dcs = 0 ∨ alphabetBits dcs = 1 ∨
    alphabetBits dcs = 2 ∨ alphabetBits dcs = 3 := by
  decide +kernel

/-- The schemes of the general group that are read in the default alphabet. -/
theorem dcsEncoding_general_eq_gsm7_iff {dcs : UInt8} (h : GeneralGroup dcs) :
    dcsEncoding dcs = .gsm7 ↔
      classPresent dcs = true ∨ alphabetBits dcs = 0 ∨ alphabetBits dcs = 3 := by
  rw [dcsEncoding_general dcs h]
  rcases alphabetBits_cases dcs with ha | ha | ha | ha <;> cases classPresent dcs <;> simp [ha]

theorem getD_withDCS {b : List UInt8} {i : ℕ} (dcs : UInt8) (hi : i ≠ dcsPos b) :
    (withDCS b dcs).getD i 0 = b.getD i 0 := by
  rw [withDCS, List.getD_eq_getElem?_getD, List.getElem?_set_ne hi.symm,
    ← List.getD_eq_getElem?_getD]

/-- Whether a PDU is accepted does not depend on its data coding scheme. -/
theorem grammar_withDCS (b : List UInt8) (dcs : UInt8) : Grammar (withDCS b dcs) ↔ Grammar b := by
  have hlen : (withDCS b dcs).length = b.length := List.length_set
  have hs := getD_withDCS (i := 0) dcs (b := b) (by rw [dcsPos]; omega)
  have ht := getD_withDCS (i := 1 + (b.getD 0 0).toNat) dcs (b := b) (by rw [dcsPos]; omega)
  have hn := getD_withDCS (i := 2 + (b.getD 0 0).toNat) dcs (b := b) (by rw [dcsPos]; omega)
  have hudh := getD_withDCS (i := 4 + (b.getD 0 0).toNat +
    ((b.getD (2 + (b.getD 0 0).toNat) 0).toNat + 1) / 2 + 1 + 1 + 7 + 1) dcs (b := b)
    (by rw [dcsPos]; omega)
  simp only [Grammar, hlen, hs, ht, hn, hudh]

theorem getD_of_drop {b rest : List UInt8} {i : ℕ} {x : UInt8} (h : b.drop i = x :: rest) :
    b.getD i 0 = x := by
  have hi := lt_of_drop h
  rw [drop_eq_getD_cons (by omega)] at h
  exact (List.cons.inj h).1

namespace Deliver

/-- The message with another data coding scheme. -/
def setDCS (d : Deliver) (dcs : UInt8) : Deliver := { d with dcs := dcs }

theorem dcsPos_octets (d : Deliver) :
    dcsPos d.octets = 4 + d.smsc.length + (d.oaLen.toNat + 1) / 2 + 1 := by
  obtain ⟨-, h1, -⟩ := d.drop_octets
  have hs : (d.octets.getD 0 0).toNat = d.smsc.length := toNat_ofNat_of_lt d.smsc_lt
  rw [show 1 + d.smsc.length + 1 = 2 + d.smsc.length by omega] at h1
  have hn : d.octets.getD (2 + d.smsc.length) 0 = d.oaLen := getD_of_drop h1
  simp only [dcsPos, hs, hn]

theorem octets_setDCS (d : Deliver) (dcs : UInt8) :
    (d.setDCS dcs).octets = withDCS d.octets dcs := by
  -- what stands in front of the data coding scheme, and what stands behind it
  obtain ⟨front, hfront⟩ : ∃ front, front = UInt8.ofNat d.smsc.length :: d.smsc ++
      d.pduType :: d.oaLen :: d.oaType :: (d.oa ++ [d.pid]) := ⟨_, rfl⟩
  have hsplit : ∀ x, (d.setDCS x).octets = front ++ x :: (d.scts ++ d.udl :: d.ud) := by
    intro x
    simp only [hfront, octets, tail, setDCS, List.append_assoc, List.cons_append, List.nil_append]
  have hlen : dcsPos d.octets = front.length := by
    rw [dcsPos_octets, hfront, ← d.oa_length]
    simp only [List.length_cons, List.length_append, List.length_nil]
    omega
  have hd : d.octets = front ++ d.dcs :: (d.scts ++ d.udl :: d.ud) := hsplit d.dcs
  rw [hsplit, withDCS, hlen, hd, List.set_append_right _ _ le_rfl, Nat.sub_self, List.set_cons_zero]

/-- The length of the payload depends on the alphabet only. -/
theorem payloadLen_setDCS (d : Deliver) {x y : UInt8} (h : dcsEncoding x = dcsEncoding y) :
    (d.setDCS x).payloadLen = (d.setDCS y).payloadLen := by
  have henc : dcsEncoding (d.setDCS x).dcs = dcsEncoding (d.setDCS y).dcs := h
  rw [payloadLen, payloadLen, henc]
  rfl

end Deliver

/-! ### The message class -/

/-- `DecodePDU` accepts the hex form of the octets of the grammar. -/
theorem accepts_iff_grammar (h : Host) {hexStr b : List UInt8} (hhex : HexOf hexStr b) :
    (∃ m, decodePDU h hexStr = .ok m) ↔ Grammar b := by
  constructor
  · rintro ⟨m, hm⟩
    by_contra hnot
    have hno : ∀ b', Hex.decodeString (trimSpace hexStr) = .ok b' → ¬ Grammar b' := by
      intro b' hb'
      rw [show Hex.decodeString _ = _ from hhex] at hb'
      cases hb'
      exact hnot
    obtain ⟨e, he⟩ := decodePDU_of_not_grammar h hno
    rw [hm] at he
    cases he
  · intro hg
    obtain ⟨d, rfl⟩ := exists_deliver_of_grammar hg
    exact ⟨_, decodePDU_octets h hhex⟩

/-- The body of a version of a PDU. -/
theorem body_of_withDCS {h : Host} {hexStr : List UInt8} {dcs : UInt8} {d : Deliver}
    {m : DecodedSMS} (hhex : HexOf hexStr (withDCS d.octets dcs))
    (hm : decodePDU h hexStr = .ok m) :
    m.body = bodyText (dcsEncoding dcs) d.payload (d.setDCS dcs).payloadLen := by
  rw [← d.octets_setDCS] at hhex
  rw [decodePDU_octets h hhex] at hm
  cases hm
  rfl

theorem deliver_mti : (0x04 : UInt8) &&& 0x03 = 0 := by decide

theorem not_udhi_deliver : ¬ Udhi 0x04 := by decide

/-- A message from the sender of `samplePart` without a header, for fixed inputs. -/
def sampleMessage (dcs udl : UInt8) (ud : List UInt8) : Deliver :=
  { samplePart [0x00] [] rfl with
    pduType := 0x04
    dcs := dcs
    udl := udl
    ud := ud
    mti := deliver_mti
    udh_le := fun h => absurd h not_udhi_deliver }

/-- A message whose user data is two zero octets, one unit of which counts. -/
def sampleZeros : Deliver := sampleMessage 0x00 1 [0x00, 0x00]

/-- In GSM7 a zero is `@`, in the other alphabets it is U+0000. -/
theorem bodyText_sampleZeros (dcs : UInt8) :
    bodyText (dcsEncoding dcs) sampleZeros.payload (sampleZeros.setDCS dcs).payloadLen =
      if dcsEncoding dcs = .gsm7 then lit "@" else [0x00] := by
  have hheader : (sampleZeros.setDCS dcs).headerLen = 0 := if_neg (show ¬ Udhi 0x04 by decide)
  have hudl : (sampleZeros.setDCS dcs).udl.toNat = 1 := rfl
  have hdcs : dcsEncoding (sampleZeros.setDCS dcs).dcs = dcsEncoding dcs := rfl
  have hpayload : sampleZeros.payload = [0x00, 0x00] := by decide
  rw [Deliver.payloadLen, hheader, hudl, hdcs, hpayload]
  cases dcsEncoding dcs with
  | gsm7 => decide
  | eightBit => decide
  | ucs2 => decide

/-- **When the message class leaves the text alone.**  Take any two data coding schemes of the
general group with the same alphabet.  Of every PDU, `DecodePDU` accepts both versions or neither.
The bodies of the two versions are equal for every PDU if and only if a class is present in both
schemes or in neither, or the alphabet is the default one or the reserved one. -/
theorem decodePDU_class_iff (h : Host) {x y : UInt8} (hx : GeneralGroup x) (hy : GeneralGroup y)
    (hxy : alphabetBits x = alphabetBits y) :
    (∀ b sx sy, HexOf sx (withDCS b x) → HexOf sy (withDCS b y) →
      ((∃ m, decodePDU h sx = .ok m) ↔ ∃ m, decodePDU h sy = .ok m)) ∧
    ((∀ b sx sy mx my, HexOf sx (withDCS b x) → HexOf sy (withDCS b y) →
        decodePDU h sx = .ok mx → decodePDU h sy = .ok my → mx.body = my.body) ↔
      classPresent x = classPresent y ∨ alphabetBits x = 0 ∨ alphabetBits x = 3) := by
  refine ⟨fun b sx sy hsx hsy => ?_, fun hall => ?_, fun hcond b sx sy mx my hsx hsy hmx hmy => ?_⟩
  · rw [accepts_iff_grammar h hsx, accepts_iff_grammar h hsy, grammar_withDCS, grammar_withDCS]
  · -- two zero octets tell the default alphabet from the others
    obtain ⟨mx, hmx⟩ := (accepts_iff_grammar h
      (hexOf_encodeToStringUpper (withDCS sampleZeros.octets x))).mpr
        ((grammar_withDCS _ x).mpr (by decide))
    obtain ⟨my, hmy⟩ := (accepts_iff_grammar h
      (hexOf_encodeToStringUpper (withDCS sampleZeros.octets y))).mpr
        ((grammar_withDCS _ y).mpr (by decide))
    have hbody := hall sampleZeros.octets _ _ mx my (hexOf_encodeToStringUpper _)
      (hexOf_encodeToStringUpper _) hmx hmy
    rw [body_of_withDCS (hexOf_encodeToStringUpper _) hmx,
      body_of_withDCS (hexOf_encodeToStringUpper _) hmy, bodyText_sampleZeros,
      bodyText_sampleZeros] at hbody
    have hne : lit "@" ≠ [0x00] := by decide
    have hgsm7 : dcsEncoding x = .gsm7 ↔ dcsEncoding y = .gsm7 := by
      split_ifs at hbody with hex hey hey
      · exact iff_of_true hex hey
      · exact absurd hbody hne
      · exact absurd hbody.symm hne
      · exact iff_of_false hex hey
    rw [dcsEncoding_general_eq_gsm7_iff hx, dcsEncoding_general_eq_gsm7_iff hy, ← hxy] at hgsm7
    by_cases hdefault : alphabetBits x = 0 ∨ alphabetBits x = 3
    · exact .inr hdefault
    · left
      simpa [hdefault] using hgsm7
  · -- the two schemes name one alphabet
    have henc : dcsEncoding x = dcsEncoding y := by
      rw [dcsEncoding_general x hx, dcsEncoding_general y hy, ← hxy]
      rcases hcond with hclass | ha | ha
      · rw [hclass]
      · simp [ha]
      · simp [ha]
    have hg := (grammar_withDCS b x).mp ((accepts_iff_grammar h hsx).mp ⟨mx, hmx⟩)
    obtain ⟨d, rfl⟩ := exists_deliver_of_grammar hg
    rw [body_of_withDCS hsx hmx, body_of_withDCS hsy hmy, d.payloadLen_setDCS henc, henc]

/-- A message in the default alphabet, without a class and as a flash message. -/
theorem decodePDU_class_iff_flash : ∃ mx my,
    decodePDU Host.sample (lit "00040291210000421010214365000341E110") = .ok mx ∧
    decodePDU Host.sample (lit "00040291210010421010214365000341E110") = .ok my ∧
    mx.body = my.body := by
  obtain ⟨haccepts, hiff⟩ := decodePDU_class_iff Host.sample (x := 0x00) (y := 0x10) (by decide)
    (by decide) (by decide)
  have hsx : HexOf (lit "00040291210000421010214365000341E110")
      (withDCS (sampleMessage 0x00 3 [0x41, 0xE1, 0x10]).octets 0x00) := by decide
  have hsy : HexOf (lit "00040291210010421010214365000341E110")
      (withDCS (sampleMessage 0x00 3 [0x41, 0xE1, 0x10]).octets 0x10) := by decide
  obtain ⟨mx, hmx⟩ := (accepts_iff_grammar Host.sample hsx).mpr (by decide)
  obtain ⟨my, hmy⟩ := (haccepts _ _ _ hsx hsy).mp ⟨mx, hmx⟩
  exact ⟨mx, my, hmx, hmy,
    hiff.mpr (.inr (.inl (by decide))) _ _ _ mx my hsx hsy hmx hmy⟩

/-- A message in UCS2: as a flash message it is read in the default alphabet. -/
theorem not_decodePDU_class :
    GeneralGroup 0x08 ∧ GeneralGroup 0x18 ∧ alphabetBits 0x08 = alphabetBits 0x18 ∧
    ∃ b sx sy mx my, HexOf sx (withDCS b 0x08) ∧ HexOf sy (withDCS b 0x18) ∧
      decodePDU Host.sample sx = .ok mx ∧ decodePDU Host.sample sy = .ok my ∧
      mx.body = encodeRunes ['ж'] ∧ my.body = encodeRunes ['è', 'l'] := by
  have hsx : HexOf (lit "0004029121000842101021436500020436")
      (withDCS (sampleMessage 0x08 2 [0x04, 0x36]).octets 0x08) := by decide
  have hsy : HexOf (lit "0004029121001842101021436500020436")
      (withDCS (sampleMessage 0x08 2 [0x04, 0x36]).octets 0x18) := by decide
  obtain ⟨mx, hmx⟩ := (accepts_iff_grammar Host.sample hsx).mpr (by decide)
  obtain ⟨my, hmy⟩ := (accepts_iff_grammar Host.sample hsy).mpr (by decide)
  refine ⟨by decide, by decide, by decide, _, _, _, mx, my, hsx, hsy, hmx, hmy, ?_, ?_⟩
  · rw [body_of_withDCS hsx hmx]
    decide
  · rw [body_of_withDCS hsy hmy]
    decide

/-! ### What follows a message -/

namespace Deliver

/-- The octets of user data that the length octet announces: septets for GSM7, octets otherwise. -/
def announced (d : Deliver) : ℕ :=
  match dcsEncoding d.dcs with
  | .gsm7 => (7 * d.udl.toNat + 7) / 8
  | _ => d.udl.toNat

/-- The message with more octets behind it.  A header that fits still fits. -/
def extend (d : Deliver) (z : List UInt8) : Deliver :=
  { d with
    ud := d.ud ++ z
    udh_le := fun hu => by
      obtain ⟨hne, hle⟩ := d.udh_le hu
      rw [List.getD_append _ _ _ _ (List.length_pos_iff.mpr hne), List.length_append]
      exact ⟨List.append_ne_nil_of_left_ne_nil hne z, by omega⟩ }

variable (d : Deliver) (z : List UInt8)

theorem octets_extend : (d.extend z).octets = d.octets ++ z := by
  simp only [octets, tail, extend, List.append_assoc, List.cons_append]

theorem headerLen_le : d.headerLen ≤ d.ud.length := by
  rw [headerLen]
  split_ifs with hu
  · exact (d.udh_le hu).2
  · exact Nat.zero_le _

theorem headerLen_extend : (d.extend z).headerLen = d.headerLen := by
  rw [headerLen, headerLen]
  by_cases hu : Udhi d.pduType
  · have hpos : 0 < d.ud.length := List.length_pos_iff.mpr (d.udh_le hu).1
    rw [if_pos (show Udhi (d.extend z).pduType from hu), if_pos hu]
    change ((d.ud ++ z).getD 0 0).toNat + 1 = _
    rw [List.getD_append _ _ _ _ hpos]
  · rw [if_neg (show ¬ Udhi (d.extend z).pduType from hu), if_neg hu]

theorem payload_extend : (d.extend z).payload = d.payload ++ z := by
  rw [payload, headerLen_extend, payload]
  exact List.drop_append_of_le_length d.headerLen_le

theorem payloadLen_extend : (d.extend z).payloadLen = d.payloadLen := by
  have henc : dcsEncoding (d.extend z).dcs = dcsEncoding d.dcs := rfl
  rw [payloadLen, payloadLen, henc, headerLen_extend]
  rfl

end Deliver

/-- User data that is long enough for the units that count delimits the text. -/
theorem bodyText_append {enc : Encoding} {ud : List UInt8} {n : ℕ} (z : List UInt8)
    (hgsm7 : enc = .gsm7 → 7 * n ≤ 8 * ud.length) (hucs2 : enc = .ucs2 → n * 2 ≤ ud.length)
    (height : enc = .eightBit → n ≤ ud.length) : bodyText enc (ud ++ z) n = bodyText enc ud n := by
  cases enc with
  | gsm7 =>
    have hfit := hgsm7 rfl
    have hlen : (ud ++ z).length = ud.length + z.length := List.length_append
    rw [bodyText, bodyText, Nat.min_eq_left (by omega), Nat.min_eq_left (by omega)]
    exact congrArg (fun c => encodeRunes (gsm7Runes c))
      (fields_congr fun k hk => stream_append_left (by decide) ud z (by omega))
  | ucs2 => rw [bodyText, bodyText, List.take_append_of_le_length (hucs2 rfl)]
  | eightBit => rw [bodyText, bodyText, List.take_append_of_le_length (height rfl)]

/-- Otherwise a UCS2 text goes on. -/
theorem bodyText_ucs2_append_ne {ud : List UInt8} {n : ℕ} (h : ud.length < n * 2) :
    bodyText .ucs2 (ud ++ List.replicate (n * 2 - ud.length) 0) n ≠ bodyText .ucs2 ud n := by
  have hlen : (ud ++ List.replicate (n * 2 - ud.length) 0).length = n * 2 := by
    rw [List.length_append, List.length_replicate]
    omega
  rw [bodyText, bodyText, List.take_of_length_le hlen.le, List.take_of_length_le h.le]
  obtain ⟨vs, hvs⟩ := pairs_append (fun hi lo => UInt16.ofNat (hi.toNat * 256 + lo.toNat)) ud
    (List.replicate (n * 2 - ud.length) 0)
  have hne : vs ≠ [] := by
    rintro rfl
    have hcount := congrArg List.length hvs
    rw [List.append_nil, length_pairs, length_pairs, hlen] at hcount
    omega
  rw [units16, units16, hvs]
  exact fun heq => Utf16.decode_append_ne _ hne (encodeRunes_injective heq)

/-- Reading a message with more octets behind it. -/
theorem body_of_extend {h : Host} {s : List UInt8} {d : Deliver} {z : List UInt8} {m : DecodedSMS}
    (hhex : HexOf s (d.octets ++ z)) (hm : decodePDU h s = .ok m) :
    m.body = bodyText (dcsEncoding d.dcs) (d.payload ++ z) d.payloadLen := by
  rw [← d.octets_extend] at hhex
  rw [decodePDU_octets h hhex] at hm
  cases hm
  rw [← d.payload_extend, ← d.payloadLen_extend z]
  rfl

/-- The units that the decoder counts behind the header fit in what the length octet announces. -/
theorem Deliver.payloadLen_le {d : Deliver} (hud : d.announced ≤ d.ud.length) :
    (dcsEncoding d.dcs = .gsm7 → 7 * d.payloadLen ≤ 8 * d.payload.length) ∧
      (dcsEncoding d.dcs = .eightBit → d.payloadLen ≤ d.payload.length) := by
  have hpayload : d.payload.length = d.ud.length - d.headerLen := List.length_drop
  have hheader := d.headerLen_le
  rw [hpayload]
  refine ⟨fun hgsm7 => ?_, fun height => ?_⟩
  · simp only [announced, payloadLen, hgsm7] at hud ⊢
    omega
  · simp only [announced, payloadLen, height] at hud ⊢
    omega

/-- **When the length octet ends the body.**  Take any DELIVER whose user data holds at least the
octets that its length octet announces, and let anything follow it.  `DecodePDU` accepts it with and
without what follows.  The body is the same whatever follows if and only if the alphabet is not UCS2
or the user data behind the header holds two octets for every unit that is counted there. -/
theorem decodePDU_trailing_iff (h : Host) (d : Deliver) (hud : d.announced ≤ d.ud.length) :
    (∀ z s s', HexOf s d.octets → HexOf s' (d.octets ++ z) →
      (∃ m, decodePDU h s = .ok m) ∧ ∃ m', decodePDU h s' = .ok m') ∧
    ((∀ z s s' m m', HexOf s d.octets → HexOf s' (d.octets ++ z) → decodePDU h s = .ok m →
        decodePDU h s' = .ok m' → m'.body = m.body) ↔
      (dcsEncoding d.dcs = .ucs2 → d.payloadLen * 2 ≤ d.payload.length)) := by
  have haccepts : ∀ z s, HexOf s (d.octets ++ z) → ∃ m, decodePDU h s = .ok m := by
    intro z s hs
    rw [← d.octets_extend] at hs
    exact ⟨_, decodePDU_octets h hs⟩
  have hnil : ∀ {s}, HexOf s d.octets → HexOf s (d.octets ++ []) := by
    intro s hs
    rwa [List.append_nil]
  refine ⟨fun z s s' hs hs' => ⟨haccepts [] s (hnil hs), haccepts z s' hs'⟩, ?_, ?_⟩
  · intro hall hucs2
    by_contra hshort
    -- zeros up to twice the length go into the body
    obtain ⟨z, hz⟩ : ∃ z, z = List.replicate (d.payloadLen * 2 - d.payload.length) (0 : UInt8) :=
      ⟨_, rfl⟩
    have hs := hexOf_encodeToStringUpper d.octets
    have hs' := hexOf_encodeToStringUpper (d.octets ++ z)
    obtain ⟨m, hm⟩ := haccepts [] _ (hnil hs)
    obtain ⟨m', hm'⟩ := haccepts z _ hs'
    have hbody := hall z _ _ m m' hs hs' hm hm'
    rw [body_of_extend hs' hm', body_of_extend (hnil hs) hm, List.append_nil, hucs2, hz] at hbody
    exact bodyText_ucs2_append_ne (by omega) hbody
  · intro hcond z s s' m m' hs hs' hm hm'
    obtain ⟨hgsm7, height⟩ := Deliver.payloadLen_le hud
    rw [body_of_extend hs' hm', body_of_extend (hnil hs) hm, List.append_nil]
    exact bodyText_append z hgsm7 hcond height

/-- An 8-bit message of three octets with two more behind it. -/
theorem decodePDU_trailing_iff_binary : ∃ m m',
    decodePDU Host.sample (lit "000402912100044210102143650003010203") = .ok m ∧
    decodePDU Host.sample (lit "000402912100044210102143650003010203FFFF") = .ok m' ∧
    m'.body = m.body := by
  obtain ⟨haccepts, hiff⟩ := decodePDU_trailing_iff Host.sample
    (sampleMessage 0x04 3 [0x01, 0x02, 0x03]) (by decide)
  have hs : HexOf (lit "000402912100044210102143650003010203")
      (sampleMessage 0x04 3 [0x01, 0x02, 0x03]).octets := by decide
  have hs' : HexOf (lit "000402912100044210102143650003010203FFFF")
      ((sampleMessage 0x04 3 [0x01, 0x02, 0x03]).octets ++ [0xFF, 0xFF]) := by decide
  obtain ⟨⟨m, hm⟩, m', hm'⟩ := haccepts _ _ _ hs hs'
  exact ⟨m, m', hm, hm', hiff.mpr (by decide) _ _ _ m m' hs hs' hm hm'⟩

/-- Two octets of UCS2 are announced and there: an `A`.  The two octets behind the message, `0042`,
are read as a `B`. -/
theorem not_decodePDU_trailing :
    (sampleMessage 0x08 2 [0x00, 0x41]).announced = (sampleMessage 0x08 2 [0x00, 0x41]).ud.length ∧
    HexOf (lit "0004029121000842101021436500020041")
      (sampleMessage 0x08 2 [0x00, 0x41]).octets ∧
    HexOf (lit "00040291210008421010214365000200410042")
      ((sampleMessage 0x08 2 [0x00, 0x41]).octets ++ [0x00, 0x42]) ∧
    (∃ m, decodePDU Host.sample (lit "0004029121000842101021436500020041") = .ok m ∧
      m.body = lit "A") ∧
    ∃ m, decodePDU Host.sample (lit "00040291210008421010214365000200410042") = .ok m ∧
      m.body = lit "AB" := by
  have hs : HexOf (lit "0004029121000842101021436500020041")
      (sampleMessage 0x08 2 [0x00, 0x41]).octets := by decide
  have hs' : HexOf (lit "00040291210008421010214365000200410042")
      ((sampleMessage 0x08 2 [0x00, 0x41]).octets ++ [0x00, 0x42]) := by decide
  refine ⟨by decide, hs, hs', ⟨_, decodePDU_octets Host.sample hs, by decide⟩, ?_⟩
  rw [← Deliver.octets_extend] at hs'
  exact ⟨_, decodePDU_octets Host.sample hs', by decide⟩

end SmsGate.At
