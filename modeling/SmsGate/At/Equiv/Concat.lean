import SmsGate.At.Equiv.Decode

/-!
# Concatenated GSM 7-bit messages

`buildGSM7PDU` starts the text of a part at a septet boundary: behind a user data header of `L`
octets come `fillBits L` zero bits, then the septets.  `decodePDU` cuts the header off and unpacks
from the next octet, fill bits and all.  So what it reads is the text shifted up by the fill.

* `unpackGSM7_fill`: the septets the decoder reads are `shiftIn` of those that were packed;
* `gsm7Runes_shiftIn_iff`: a shift by one to six bits shows in the text, unless every septet is 0;
* `decodePDU_concat_iff`: the decoder gives the text back exactly when the header needs no fill or
  the text is made of septets 0 only.
-/

namespace SmsGate.At

open Go Go.Bits Go.Utf8 Go.Strings Go.Outcome

variable {ε : Type}

/-- The septets a header of `l` octets takes up, rounded up. -/
def headerSeptets (l : ℕ) : ℕ := (8 * l + 6) / 7

/-- The bits between a header of `l` octets and the next septet boundary. -/
def fillBits (l : ℕ) : ℕ := 7 * headerSeptets l - 8 * l

theorem fillBits_lt (l : ℕ) : fillBits l < 7 := by
  unfold fillBits headerSeptets
  omega

theorem fillBits_eq_zero_iff (l : ℕ) : fillBits l = 0 ↔ 7 ∣ l := by
  unfold fillBits headerSeptets
  omega

/-! ### Shifted septets -/

/-- A septet shifted up by `f` bits, the top bits of the septet before coming in below. -/
def shiftSeptet (f : ℕ) (before c : UInt8) : UInt8 :=
  (c <<< UInt8.ofNat f ||| before >>> UInt8.ofNat (7 - f)) &&& 0x7F

/-- A list of septets shifted up by `f` bits. -/
def shiftIn (f : ℕ) : (before : UInt8) → List UInt8 → List UInt8
  | _, [] => []
  | before, c :: cs => shiftSeptet f before c :: shiftIn f c cs

@[simp] theorem length_shiftIn (f : ℕ) : ∀ (before : UInt8) (cs : List UInt8),
    (shiftIn f before cs).length = cs.length
  | _, [] => rfl
  | _, c :: cs => by rw [shiftIn, List.length_cons, length_shiftIn f c cs, List.length_cons]

theorem septets_shiftIn (f : ℕ) : ∀ (before : UInt8) (cs : List UInt8),
    Septets (shiftIn f before cs)
  | _, [] => nofun
  | before, c :: cs => by
    have hmask : ∀ b : UInt8, (b &&& 0x7F).toNat < 128 := by decide +kernel
    intro x hx
    rcases List.mem_cons.mp hx with rfl | hx
    · exact hmask _
    · exact septets_shiftIn f c cs x hx

theorem stream_shiftIn {f : ℕ} (hf : f < 7) (cs : List UInt8) : ∀ (before : UInt8) (k : ℕ),
    before.toNat < 128 → Septets cs → k < 7 * cs.length →
    stream 7 (shiftIn f before cs) k =
      if k < f then before.toNat.testBit (7 - f + k) else stream 7 cs (k - f) := by
  induction cs with
  | nil => intro _ _ _ _ hk; exact absurd hk (by simp)
  | cons c cs ih =>
    intro before k hb hcs hk
    obtain ⟨hc, hcs⟩ := List.forall_mem_cons.mp hcs
    rw [List.length_cons] at hk
    rw [shiftIn, stream_cons (by decide)]
    by_cases hk7 : k < 7
    · rw [if_pos hk7, shiftSeptet, testBit_and_0x7F, testBit_or, testBit_shiftLeft (by omega),
        testBit_shiftRight (by omega)]
      by_cases hkf : k < f
      · simp [hkf, hk7, show ¬ f ≤ k by omega]
      · rw [if_neg hkf, stream_cons (by decide), if_pos (by omega),
          testBit_septet_of_le hb (show 7 ≤ 7 - f + k by omega)]
        simp [hk7, show k < 8 by omega, show f ≤ k by omega]
    · rw [if_neg hk7, ih c (k - 7) hc hcs (by omega), if_neg (show ¬ k < f by omega),
        stream_cons (by decide)]
      by_cases hkf : k - 7 < f
      · rw [if_pos hkf, if_pos (by omega)]
        congr 1
        omega
      · rw [if_neg hkf, if_neg (by omega)]
        congr 1
        omega

/-- **What the decoder reads behind a header it cut off.** -/
theorem unpackGSM7_fill {f : ℕ} (hf : f < 7) {cs : List UInt8} (hcs : Septets cs) :
    (unpackGSM7 (repackWithFill cs f) cs.length : Outcome ε (List UInt8)) =
      .ok (shiftIn f 0 cs) := by
  rw [unpackGSM7_repackWithFill, ← eq_fields (w := 7) (by decide) (by decide)
    (length_shiftIn f 0 cs) (septets_shiftIn f 0 cs)]
  intro k hk
  rw [stream_shiftIn hf cs 0 k (by decide) hcs hk]
  split_ifs with hkf
  · rw [decide_eq_false (by omega), Bool.false_and]
    exact Nat.zero_testBit _
  · rw [decide_eq_true (by omega), Bool.true_and]

theorem shiftIn_zero {cs : List UInt8} (hcs : Septets cs) : shiftIn 0 0 cs = cs := by
  have h := unpackGSM7_fill (ε := Unit) (f := 0) (by decide) hcs
  rw [unpackGSM7_repackWithFill] at h
  injection h with h
  rw [← h]
  conv_rhs => rw [← fields_stream_septets hcs]
  exact fields_congr fun k _ => by simp

/-! ### A shift shows in the text -/

/-- The first rune of a shifted text differs, unless it starts with septet 0: the basic table has
no rune twice, and no shifted septet is an escape. -/
theorem basicRune_shiftSeptet : ∀ c : UInt8, ∀ f : Fin 6, c.toNat < 128 → c ≠ 0x1B →
    shiftSeptet (f + 1) 0 c ≠ 0x1B ∧
      (basicRune (shiftSeptet (f + 1) 0 c) = basicRune c → c = 0) := by
  decide +kernel

/-- A shifted escape is a rune of the basic table that no extension code stands for. -/
theorem basicRune_shiftSeptet_escape : ∀ f : Fin 6, ∀ x : UInt8,
    shiftSeptet (f + 1) 0 0x1B ≠ 0x1B ∧
      basicRune (shiftSeptet (f + 1) 0 0x1B) ≠ [extensionRune x] := by
  decide +kernel

theorem shiftIn_of_forall_eq_zero (f : ℕ) {cs : List UInt8} (h : ∀ c ∈ cs, c = 0) :
    shiftIn f 0 cs = cs := by
  induction cs with
  | nil => rfl
  | cons c cs ih =>
    obtain ⟨rfl, hcs⟩ := List.forall_mem_cons.mp h
    rw [shiftIn, ih hcs, shiftSeptet]
    simp

/-- **A shift shows in the text**, unless every septet is 0. -/
theorem gsm7Runes_shiftIn_iff {f : ℕ} (hf0 : 0 < f) (hf : f < 7) {cs : List UInt8}
    (hcs : Septets cs) : gsm7Runes (shiftIn f 0 cs) = gsm7Runes cs ↔ ∀ c ∈ cs, c = 0 := by
  obtain ⟨g, rfl⟩ : ∃ g : Fin 6, f = g + 1 := ⟨⟨f - 1, by omega⟩, by simp; omega⟩
  refine ⟨fun h => ?_, fun h => by rw [shiftIn_of_forall_eq_zero _ h]⟩
  induction cs with
  | nil => simp
  | cons c cs ih =>
    obtain ⟨hc, hcs'⟩ := List.forall_mem_cons.mp hcs
    have hy : (shiftSeptet (g + 1) 0 c).toNat < 128 :=
      septets_shiftIn (g + 1) 0 (c :: cs) _ List.mem_cons_self
    rw [shiftIn] at h
    by_cases hesc : c = 0x1B
    · -- the text of an escape is empty or a rune of the extension table
      subst hesc
      obtain ⟨hne, _⟩ := basicRune_shiftSeptet_escape g 0
      rw [gsm7Runes_cons_of_ne hne] at h
      have hlen := congrArg List.length h
      rw [List.length_append, length_basicRune hy] at hlen
      cases cs with
      | nil => simp [gsm7Runes] at hlen
      | cons x cs =>
        rw [gsm7Runes_escape, ← List.singleton_append] at h
        exact absurd (List.append_inj_left h (length_basicRune hy))
          (basicRune_shiftSeptet_escape g x).2
    · obtain ⟨hne, hzero⟩ := basicRune_shiftSeptet c g hc hesc
      rw [gsm7Runes_cons_of_ne hne, gsm7Runes_cons_of_ne hesc] at h
      obtain ⟨hhead, htail⟩ :=
        List.append_inj h ((length_basicRune hy).trans (length_basicRune hc).symm)
      obtain rfl := hzero hhead
      exact List.forall_mem_cons.mpr ⟨rfl, ih hcs' htail⟩

/-! ### The decoder -/

/-- **When a concatenated message is decoded right.**  A DELIVER whose user data is a header of
`hdr.length` octets and septets packed behind the fill bits, as the encoder packs them, is decoded
to the text of the septets exactly when the header needs no fill or all septets are 0. -/
theorem decodePDU_concat_iff (h : Host) (hexStr : List UInt8) (d : Deliver) (hdr c : List UInt8)
    (hudhi : Udhi d.pduType) (hdcs : dcsEncoding d.dcs = .gsm7)
    (hhdr : (hdr.getD 0 0).toNat + 1 = hdr.length) (hc : Septets c)
    (hud : d.ud = hdr ++ repackWithFill c (fillBits hdr.length))
    (hudl : d.udl.toNat = headerSeptets hdr.length + c.length)
    (hhex : Hex.decodeString (trimSpace hexStr) = .ok d.octets) :
    (∃ m, decodePDU h hexStr = .ok m ∧
        (decodeGSM7Text c : Outcome DecodeErr (List UInt8)) = .ok m.body) ↔
      7 ∣ hdr.length ∨ ∀ x ∈ c, x = 0 := by
  have hfst : d.ud.getD 0 0 = hdr.getD 0 0 := by
    rw [hud]
    exact List.getD_append _ _ _ _ (by omega)
  have hlen : d.headerLen = hdr.length := by rw [Deliver.headerLen, if_pos hudhi, hfst, hhdr]
  have hpayload : d.payload = repackWithFill c (fillBits hdr.length) := by
    rw [Deliver.payload, hlen, hud, List.drop_left]
  have hpayloadLen : d.payloadLen = c.length := by
    rw [Deliver.payloadLen, hdcs]
    dsimp only
    rw [hlen, hudl, headerSeptets, Nat.add_sub_cancel_left]
  have hbody : bodyText (dcsEncoding d.dcs) d.payload d.payloadLen =
      encodeRunes (gsm7Runes (shiftIn (fillBits hdr.length) 0 c)) := by
    have hunpack := unpackGSM7_fill (ε := DecodeErr) (fillBits_lt hdr.length) hc
    rw [unpackGSM7_eq] at hunpack
    injection hunpack with hunpack
    rw [hdcs, hpayload, hpayloadLen, bodyText, hunpack]
  have htext : gsm7Runes (shiftIn (fillBits hdr.length) 0 c) = gsm7Runes c ↔
      7 ∣ hdr.length ∨ ∀ x ∈ c, x = 0 := by
    rcases Nat.eq_zero_or_pos (fillBits hdr.length) with hzero | hpos
    · rw [hzero, shiftIn_zero hc]
      simp [(fillBits_eq_zero_iff hdr.length).mp hzero]
    · rw [gsm7Runes_shiftIn_iff hpos (fillBits_lt _) hc,
        or_iff_right fun hdvd => absurd ((fillBits_eq_zero_iff _).mpr hdvd) (by omega)]
  rw [decodeGSM7Text_eq, ← htext]
  constructor
  · rintro ⟨m, hm, hb⟩
    rw [decodePDU_octets h hhex] at hm
    cases hm
    injection hb with hb
    rw [Deliver.decoded, hbody] at hb
    exact (encodeRunes_injective hb).symm
  · intro heq
    exact ⟨_, decodePDU_octets h hhex, by rw [Deliver.decoded, hbody, heq]⟩

/-- A part from the sender `+12` with the given header and septets, for fixed inputs. -/
def samplePart (hdr c : List UInt8) (hhdr : (hdr.getD 0 0).toNat + 1 = hdr.length) : Deliver where
  smsc := []
  pduType := 0x44
  oaLen := 2
  oaType := 0x91
  oa := [0x21]
  pid := 0
  dcs := 0
  scts := [0x42, 0x10, 0x10, 0x21, 0x43, 0x65, 0x00]
  udl := UInt8.ofNat (headerSeptets hdr.length + c.length)
  ud := hdr ++ repackWithFill c (fillBits hdr.length)
  smsc_lt := by decide
  mti := by decide
  oa_length := by decide
  scts_length := by decide
  udh_le _ := by
    have hfst : (hdr ++ repackWithFill c (fillBits hdr.length)).getD 0 0 = hdr.getD 0 0 :=
      List.getD_append _ _ _ _ (by omega)
    rw [hfst, hhdr, List.length_append]
    exact ⟨List.append_ne_nil_of_left_ne_nil (List.ne_nil_of_length_pos (by omega)) _, by omega⟩

/-- A host for fixed inputs, with ASCII case and no digest. -/
def Host.sample : Host where
  sum256 := id
  caseTable := .ascii

/-- A header of seven octets (16-bit reference) needs no fill: part `A` is read as `A`. -/
theorem decodePDU_concat_iff_seven_octets : ∃ m,
    decodePDU Host.sample (lit "0044029121000042101021436500090608040042020141") = .ok m ∧
      (decodeGSM7Text [0x41] : Outcome DecodeErr (List UInt8)) = .ok m.body :=
  (decodePDU_concat_iff Host.sample _
    (samplePart [0x06, 0x08, 0x04, 0x00, 0x42, 0x02, 0x01] [0x41] (by decide))
    [0x06, 0x08, 0x04, 0x00, 0x42, 0x02, 0x01] [0x41] (by decide) (by decide) (by decide)
    (by decide +kernel) rfl (by decide) rfl).mpr (.inl (by decide))

/-- A header of six octets, the one the encoder writes, needs one fill bit: part `A` is read
as `$`. -/
theorem decodePDU_concat_six_octets : ∃ m,
    Hex.decodeString (lit "00440291210000421010214365000805000342020182") =
      .ok (samplePart [0x05, 0x00, 0x03, 0x42, 0x02, 0x01] [0x41] (by decide)).octets ∧
    decodePDU Host.sample (lit "00440291210000421010214365000805000342020182") = .ok m ∧
    m.body = lit "$" ∧
    (decodeGSM7Text [0x41] : Outcome DecodeErr (List UInt8)) = .ok (lit "A") :=
  ⟨_, rfl, decodePDU_octets Host.sample (d := samplePart [0x05, 0x00, 0x03, 0x42, 0x02, 0x01] [0x41]
    (by decide)) rfl, by decide +kernel, by decide +kernel⟩

end SmsGate.At
