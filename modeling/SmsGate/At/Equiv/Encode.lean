import SmsGate.At.Equiv.Decode
import SmsGate.Formats
import Mathlib.Data.List.Forall2

/-!
# What `EncodePDU` sends

`Submit.ofOctets` reads octets in the SMS-SUBMIT layout of 3GPP TS 23.040, independently of the
encoder.  Read that way, the PDUs of `encodePDU`:

* give the destination back (`decodeBCDAddress_encodeBCDAddress`);
* carry the septets of the text in order (`encodePDU_gsm7_lossless`), at most 140 octets each;
* in UCS2, carry at most 140 octets of user data, announced as such, exactly when no part has too
  many UTF-16 units (`encodePDU_ucs2_fits_iff`).
-/

namespace SmsGate.At

open Go Go.Bits Go.Utf8 Go.Outcome

variable {ε : Type}

/-! ### Addresses -/

theorem toNat_sub_of_isDigit : ∀ d : UInt8, isDigit d →
    (d - 0x30).toNat < 10 ∧ 0x30 + (d - 0x30) = d ∧ d ≠ 0x46 := by
  decide +kernel

/-- The high semi-octet as `encodeBCDAddress` writes it; the padding digit `F` is 0xF. -/
def semiOctet (d : UInt8) : UInt8 := if d = 0x46 then 0x0F else d - 0x30

/-- The octet of two digits. -/
def packPair (lo hi : UInt8) : UInt8 := (lo - 0x30) ||| (semiOctet hi <<< (4 : UInt8))

theorem nibbles_pair : ∀ lo hi : Fin 16,
    (UInt8.ofNat lo ||| UInt8.ofNat hi <<< 4) &&& 0x0F = UInt8.ofNat lo ∧
    ((UInt8.ofNat lo ||| UInt8.ofNat hi <<< 4) >>> 4) &&& 0x0F = UInt8.ofNat hi := by
  decide

theorem nibbles_cons {lo hi : UInt8} (hlo : lo.toNat < 16) (hhi : hi.toNat < 16)
    (data : List UInt8) : nibbles ((lo ||| hi <<< 4) :: data) = lo :: hi :: nibbles data := by
  obtain ⟨h1, h2⟩ := nibbles_pair ⟨lo.toNat, hlo⟩ ⟨hi.toNat, hhi⟩
  dsimp only at h1 h2
  rw [UInt8.ofNat_toNat, UInt8.ofNat_toNat] at h1 h2
  rw [nibbles, List.flatMap_cons, ← nibbles, h1, h2]
  rfl

/-- The nibbles of packed digits are the digits; a missing one is padding. -/
theorem nibbles_packDigits (ds : List UInt8) (hds : ∀ d ∈ ds, isDigit d) :
    nibbles (pairs packPair (if ds.length % 2 ≠ 0 then ds ++ lit "F" else ds)) =
      ds.map (· - 0x30) ++ List.replicate (ds.length % 2) 0x0F := by
  induction ds using pairs.induct with
  | case1 a b rest ih =>
    obtain ⟨ha, hrest⟩ := List.forall_mem_cons.mp hds
    obtain ⟨hb, hrest⟩ := List.forall_mem_cons.mp hrest
    obtain ⟨hav, _, _⟩ := toNat_sub_of_isDigit a ha
    obtain ⟨hbv, _, hbF⟩ := toNat_sub_of_isDigit b hb
    have hpar : (a :: b :: rest).length % 2 = rest.length % 2 := by
      rw [List.length_cons, List.length_cons]
      omega
    have hcons : (if rest.length % 2 ≠ 0 then a :: b :: rest ++ lit "F" else a :: b :: rest) =
        a :: b :: (if rest.length % 2 ≠ 0 then rest ++ lit "F" else rest) := by
      split_ifs <;> rfl
    rw [hpar, hcons, pairs, packPair, semiOctet, if_neg hbF, nibbles_cons (by omega) (by omega),
      ih hrest]
    rfl
  | case2 ds hshort =>
    rcases ds with _ | ⟨a, _ | ⟨b, rest⟩⟩
    · rfl
    · obtain ⟨hav, _, _⟩ := toNat_sub_of_isDigit a (hds a List.mem_cons_self)
      have hlow : (a - 0x30).toNat < 16 := by omega
      exact nibbles_cons hlow (show (0x0F : UInt8).toNat < 16 by decide) []
    · exact absurd rfl (hshort a b rest)

/-- The digits, with the padding digit where their number is odd, two to an octet. -/
def packDigits (ds : List UInt8) : List UInt8 :=
  pairs packPair (if ds.length % 2 ≠ 0 then ds ++ lit "F" else ds)

/-- The digits are read back from any number of semi-octets that covers them: the padding ends
them. -/
theorem bcdDigits_packDigits {ds : List UInt8} (hds : ∀ d ∈ ds, isDigit d) {n : ℕ}
    (hn : ds.length ≤ n) : bcdDigits (packDigits ds) n = ds := by
  have hall : ∀ x ∈ ds.map (· - 0x30), decide (x ≠ 0x0F) = true := by
    intro x hx
    obtain ⟨d, hd, rfl⟩ := List.mem_map.mp hx
    have hlt := (toNat_sub_of_isDigit d (hds d hd)).1
    refine decide_eq_true fun heq => ?_
    rw [heq] at hlt
    exact absurd hlt (by decide)
  have hpad : ((List.replicate (ds.length % 2) (0x0F : UInt8)).take
      (n - (ds.map (· - 0x30)).length)).takeWhile (· ≠ 0x0F) = [] := by
    rw [List.take_replicate, List.takeWhile_replicate, if_neg (by decide)]
  rw [bcdDigits, packDigits, nibbles_packDigits ds hds, List.take_append,
    List.take_of_length_le (by rwa [List.length_map]), List.takeWhile_append_of_pos hall, hpad,
    List.append_nil, List.map_map]
  conv_rhs => rw [← List.map_id ds]
  exact List.map_congr_left fun d hd => (toNat_sub_of_isDigit d (hds d hd)).2.1

theorem encodeBCDAddress_plus (ds : List UInt8) :
    encodeBCDAddress (0x2B :: ds) = (ds.length, 0x91, packDigits ds) :=
  congrArg (fun data => (ds.length, 0x91, data)) (map_range_pairs packPair _)

theorem address_encodeBCDAddress {ds : List UInt8} (hds : ∀ d ∈ ds, isDigit d) {n : ℕ}
    (hn : ds.length ≤ n) :
    address (encodeBCDAddress (0x2B :: ds)).2.2 n (encodeBCDAddress (0x2B :: ds)).2.1 =
      0x2B :: ds := by
  rw [encodeBCDAddress_plus, address_international, bcdDigits_packDigits hds hn]

/-- **A number in E.164 form survives the address field.** -/
theorem decodeBCDAddress_encodeBCDAddress {ds : List UInt8} (hds : ∀ d ∈ ds, isDigit d) :
    (decodeBCDAddress (encodeBCDAddress (0x2B :: ds)).2.2 (encodeBCDAddress (0x2B :: ds)).1
        (encodeBCDAddress (0x2B :: ds)).2.1 : Outcome ε (List UInt8)) = .ok (0x2B :: ds) := by
  have hnum : (encodeBCDAddress (0x2B :: ds)).1 = ds.length := rfl
  rw [decodeBCDAddress_eq, hnum, address_encodeBCDAddress hds le_rfl]

theorem length_encodeBCDAddress (dest : List UInt8) :
    (encodeBCDAddress dest).2.2.length = ((encodeBCDAddress dest).1 + 1) / 2 := by
  unfold encodeBCDAddress
  dsimp only
  rw [List.length_map, List.length_range]
  generalize (if Strings.hasPrefix dest (lit "+") then dest.drop 1 else dest) = digits
  split_ifs with h
  · rw [List.length_append]
    rfl
  · omega

/-! ### The SMS-SUBMIT layout -/

/-- An SMS-SUBMIT. -/
structure Submit where
  pduType : UInt8
  mr : UInt8
  /-- The number of semi-octets of the destination address. -/
  daLen : UInt8
  daType : UInt8
  da : List UInt8
  pid : UInt8
  dcs : UInt8
  vp : List UInt8
  udl : UInt8
  ud : List UInt8

/-- The number of octets of the validity period, by the format in bits 4 and 3 of the first
octet: none, relative, or one of the two longer formats. -/
def vpLen (pduType : UInt8) : ℕ :=
  let vpf := (pduType >>> 3) &&& (0x03 : UInt8)
  if vpf = 0 then 0 else if vpf = 2 then 1 else 7

/-- Octets read in the SMS-SUBMIT layout, behind the service centre. -/
def Submit.ofOctets : List UInt8 → Option Submit
  | [] => none
  | smscLen :: raw =>
    match raw.drop smscLen.toNat with
    | pduType :: mr :: daLen :: daType :: raw =>
      match raw.drop ((daLen.toNat + 1) / 2) with
      | pid :: dcs :: rest =>
        match rest.drop (vpLen pduType) with
        | udl :: ud =>
          some { pduType := pduType, mr := mr, daLen := daLen, daType := daType
                 da := raw.take ((daLen.toNat + 1) / 2), pid := pid, dcs := dcs
                 vp := rest.take (vpLen pduType), udl := udl, ud := ud }
        | [] => none
      | _ => none
    | _ => none

/-- The hex string of a PDU is that of an SMS-SUBMIT, and `Length` counts its octets without the
service centre's length octet. -/
def EncodedPDU.Reads (p : EncodedPDU) (m : Submit) : Prop :=
  ∃ raw, Hex.decodeString p.hexStr = .ok raw ∧ Submit.ofOctets raw = some m ∧
    p.length = raw.length - 1 ∧ 0 < raw.length

/-- The destination as `decodeBCDAddress` reads it. -/
def Submit.dest (m : Submit) : Outcome DecodeErr (List UInt8) :=
  decodeBCDAddress m.da m.daLen.toNat m.daType

/-- The septets of the text: those of the user data, without the seven of the header. -/
def Submit.septets (m : Submit) : Outcome DecodeErr (List UInt8) := do
  let codes ← unpackGSM7 m.ud m.udl.toNat
  return codes.drop (if Udhi m.pduType then 7 else 0)

/-- The user data starts with the concatenation header of part `i` of `n`. -/
def Submit.IsPart (m : Submit) (n i : ℕ) : Prop :=
  Udhi m.pduType ∧ ∃ total part rest, m.ud = 0x05 :: 0x00 :: 0x03 :: 0x42 :: total :: part :: rest ∧
    total.toNat = n ∧ part.toNat = i

/-- The encoder's layout read back. -/
theorem ofOctets_layout {pduType daLen : UInt8} {da : List UInt8} (hvp : vpLen pduType = 1)
    (hda : da.length = (daLen.toNat + 1) / 2) (mr daType pid dcs vp udl : UInt8)
    (ud : List UInt8) :
    Submit.ofOctets ([0x00, pduType, mr, daLen, daType] ++ da ++ [pid, dcs, vp, udl] ++ ud) =
      some { pduType := pduType, mr := mr, daLen := daLen, daType := daType, da := da, pid := pid
             dcs := dcs, vp := [vp], udl := udl, ud := ud } := by
  have hdrop : (da ++ [pid, dcs, vp, udl] ++ ud).drop ((daLen.toNat + 1) / 2) =
      pid :: dcs :: vp :: udl :: ud := by
    rw [← hda, List.append_assoc, List.drop_left]
    rfl
  have htake : (da ++ [pid, dcs, vp, udl] ++ ud).take ((daLen.toNat + 1) / 2) = da := by
    rw [← hda, List.append_assoc, List.take_left]
  simp only [List.cons_append, List.nil_append, Submit.ofOctets, UInt8.toNat_zero, List.drop_zero,
    hdrop, htake, hvp, List.drop_succ_cons, List.take_succ_cons, List.take_zero]

theorem reads_finishPDU {pdu : List UInt8} {m : Submit} (h : Submit.ofOctets pdu = some m)
    (total : UInt8) : (finishPDU pdu total).Reads m := by
  refine ⟨pdu, Hex.decodeString_encodeToStringUpper pdu, h, rfl, ?_⟩
  cases pdu with
  | nil => cases h
  | cons _ _ => exact Nat.succ_pos _

/-- The message both builders lay out, with the header indicator and the fields they differ in. -/
def builtSubmit (dest : List UInt8) (multiPart : Bool) (dcs : UInt8) (udl : ℕ)
    (ud : List UInt8) : Submit where
  pduType := if multiPart then 0x11 ||| 0x40 else 0x11
  mr := 0
  daLen := UInt8.ofNat (encodeBCDAddress dest).1
  daType := (encodeBCDAddress dest).2.1
  da := (encodeBCDAddress dest).2.2
  pid := 0
  dcs := dcs
  vp := [0xAA]
  udl := UInt8.ofNat udl
  ud := ud

theorem udhi_builtSubmit (dest : List UInt8) (multiPart : Bool) (dcs : UInt8) (udl : ℕ)
    (ud : List UInt8) : Udhi (builtSubmit dest multiPart dcs udl ud).pduType ↔ multiPart := by
  cases multiPart
  · exact iff_of_false (show ¬ Udhi 0x11 by decide) Bool.false_ne_true
  · exact iff_of_true (show Udhi (0x11 ||| 0x40) by decide) rfl

section Built

theorem dest_builtSubmit {ds : List UInt8} (hlen : ds.length < 256) (hds : ∀ d ∈ ds, isDigit d)
    (multiPart : Bool) (dcs : UInt8) (udl : ℕ) (ud : List UInt8) :
    (builtSubmit (0x2B :: ds) multiPart dcs udl ud).dest = .ok (0x2B :: ds) := by
  have hdaLen : (UInt8.ofNat (encodeBCDAddress (0x2B :: ds)).1).toNat = ds.length :=
    toNat_ofNat_of_lt hlen
  rw [Submit.dest]
  dsimp only [builtSubmit]
  rw [hdaLen]
  exact decodeBCDAddress_encodeBCDAddress hds

variable {dest : List UInt8} (hdest : (encodeBCDAddress dest).1 < 256)

include hdest

theorem reads_builtSubmit (multiPart : Bool) (dcs : UInt8) (udl : ℕ) (ud : List UInt8)
    (total : UInt8) :
    (finishPDU ([0x00, if multiPart then 0x11 ||| 0x40 else 0x11, 0x00,
        UInt8.ofNat (encodeBCDAddress dest).1, (encodeBCDAddress dest).2.1] ++
        (encodeBCDAddress dest).2.2 ++ [0x00, dcs, 0xAA, UInt8.ofNat udl] ++ ud)
      total).Reads (builtSubmit dest multiPart dcs udl ud) := by
  refine reads_finishPDU ?_ total
  have hvp : vpLen (if multiPart then 0x11 ||| 0x40 else 0x11) = 1 := by split_ifs <;> decide
  have hda : (encodeBCDAddress dest).2.2.length =
      ((UInt8.ofNat (encodeBCDAddress dest).1).toNat + 1) / 2 := by
    rw [toNat_ofNat_of_lt hdest, length_encodeBCDAddress]
  exact ofOctets_layout hvp hda _ _ _ _ _ _ _

end Built

/-! ### Splitting -/

/-- The units of part `i`. -/
def chunk {α : Type} (k : ℕ) (xs : List α) (i : ℕ) : List α := (xs.drop (i * k)).take k

theorem flatMap_chunk {α : Type} (k : ℕ) (xs : List α) : ∀ m : ℕ,
    (List.range m).flatMap (chunk k xs) = xs.take (m * k) := by
  intro m
  induction m with
  | zero => simp
  | succ m ih =>
    rw [List.range_succ, List.flatMap_append, ih, List.flatMap_singleton, chunk, Nat.succ_mul,
      List.take_add]

theorem length_chunk_le {α : Type} (k : ℕ) (xs : List α) (i : ℕ) : (chunk k xs i).length ≤ k := by
  rw [chunk, List.length_take]
  exact Nat.min_le_left _ _

/-- The number of parts of a text that needs more than one. -/
def numParts (k n : ℕ) : ℕ := (n + k - 1) / k

theorem le_numParts_mul {k : ℕ} (hk : 0 < k) (n : ℕ) : n ≤ numParts k n * k := by
  have h := Nat.div_add_mod (n + k - 1) k
  have hlt := Nat.mod_lt (n + k - 1) hk
  rw [numParts, Nat.mul_comm]
  omega

/-- The parts hold the whole text, in order. -/
theorem flatMap_chunk_numParts {α : Type} {k : ℕ} (hk : 0 < k) (xs : List α) :
    (List.range (numParts k xs.length)).flatMap (chunk k xs) = xs := by
  rw [flatMap_chunk, List.take_of_length_le (le_numParts_mul hk xs.length)]

/-- What the split of both encoders gives. -/
theorem splitParts_eq {α : Type} (single concat : ℕ)
    (build : List α → UInt8 → UInt8 → UInt8 → EncodedPDU) (xs : List α) :
    splitParts single concat build xs =
      if xs.length ≤ single then [build xs 0 0 0]
      else (List.range (numParts concat xs.length)).map fun i => build (chunk concat xs i) 0x42
        (UInt8.ofNat (numParts concat xs.length)) (UInt8.ofNat (i + 1)) := by
  unfold splitParts
  dsimp only
  split_ifs with h
  · rfl
  · refine List.map_congr_left fun i _ => ?_
    congr 1
    rw [chunk, List.drop_take]
    split_ifs with hlast
    · rw [List.take_of_length_le (by rw [List.length_drop]),
        List.take_of_length_le (by rw [List.length_drop]; omega)]
    · rw [Nat.add_sub_cancel_left]

/-- The units of each part. -/
def partUnits {α : Type} (single concat : ℕ) (xs : List α) : List (List α) :=
  if xs.length ≤ single then [xs]
  else (List.range (numParts concat xs.length)).map (chunk concat xs)

theorem flatten_partUnits {α : Type} (single : ℕ) {concat : ℕ} (hconcat : 0 < concat)
    (xs : List α) : (partUnits single concat xs).flatten = xs := by
  unfold partUnits
  split_ifs
  · exact List.flatten_singleton
  · rw [← List.flatMap_def, flatMap_chunk_numParts hconcat]

/-- The messages that the PDUs of a split are read as.  A message in one part has no header, and the
others are numbered. -/
structure SplitReads (pdus : List EncodedPDU) (ms : List Submit) : Prop where
  reads : List.Forall₂ EncodedPDU.Reads pdus ms
  single : ms.length = 1 → ∀ m ∈ ms, ¬ Udhi m.pduType
  parts : 1 < ms.length → ms.length ≤ 255 ∧
    ∀ (i : ℕ) (m : Submit), ms[i]? = some m → m.IsPart ms.length (i + 1)

/-- What the PDUs of a split are read as, whatever the units: `submit` is what one PDU is read as,
and `Q` what it says of its units. -/
theorem exists_splitReads {α : Type} {single concat : ℕ} {xs : List α}
    {build : List α → UInt8 → UInt8 → UInt8 → EncodedPDU}
    (submit : List α → UInt8 → UInt8 → UInt8 → Submit) (Q : Submit → List α → Prop)
    (hreads : ∀ c ref total partNum, (build c ref total partNum).Reads
      (submit c ref total partNum))
    (hudhi : ¬ Udhi (submit xs 0 0 0).pduType)
    (hpart : ∀ c total partNum, 0 < total →
      (submit c 0x42 total partNum).IsPart total.toNat partNum.toNat)
    (hsingle : xs.length ≤ single → Q (submit xs 0 0 0) xs)
    (hchunk : ∀ i total partNum, 0 < total →
      Q (submit (chunk concat xs i) 0x42 total partNum) (chunk concat xs i))
    (hmax : single < xs.length → 2 ≤ numParts concat xs.length ∧ numParts concat xs.length ≤ 255) :
    ∃ ms, SplitReads (splitParts single concat build xs) ms ∧
      List.Forall₂ Q ms (partUnits single concat xs) := by
  rw [splitParts_eq, partUnits]
  split_ifs with hle
  · refine ⟨[submit xs 0 0 0], ⟨.cons (hreads xs 0 0 0) .nil, ?_, ?_⟩, .cons (hsingle hle) .nil⟩
    · exact fun _ => List.forall_mem_singleton.mpr hudhi
    · exact fun h => absurd h (by simp)
  · obtain ⟨htwo, hmax⟩ := hmax (by omega)
    generalize numParts concat xs.length = n at *
    have hn : (UInt8.ofNat n).toNat = n := toNat_ofNat_of_lt (by omega)
    have htotal : 0 < UInt8.ofNat n := by
      rw [UInt8.lt_iff_toNat_lt, hn]
      exact Nat.lt_of_lt_of_le Nat.zero_lt_two htwo
    refine ⟨(List.range n).map fun i =>
      submit (chunk concat xs i) 0x42 (UInt8.ofNat n) (UInt8.ofNat (i + 1)), ⟨?_, ?_, ?_⟩, ?_⟩
    · rw [List.forall₂_map_left_iff, List.forall₂_map_right_iff, List.forall₂_same]
      exact fun i _ => hreads _ _ _ _
    · intro hone
      rw [List.length_map, List.length_range] at hone
      omega
    · rw [List.length_map, List.length_range]
      refine fun _ => ⟨hmax, fun i m hm => ?_⟩
      rw [List.getElem?_map, Option.map_eq_some_iff] at hm
      obtain ⟨j, hj, rfl⟩ := hm
      obtain ⟨hi, rfl⟩ := List.getElem?_eq_some_iff.mp hj
      rw [List.length_range] at hi
      rw [List.getElem_range]
      have hnumbered := hpart (chunk concat xs i) (UInt8.ofNat n) (UInt8.ofNat (i + 1)) htotal
      rwa [hn, toNat_ofNat_of_lt (by omega)] at hnumbered
    · rw [List.forall₂_map_left_iff, List.forall₂_map_right_iff, List.forall₂_same]
      exact fun i _ => hchunk i _ _ htotal

/-! ### GSM 7-bit messages -/

/-- A code of the basic table is the position of its rune. -/
theorem getElem?_of_runeToGSM7 {r : Char} {b : UInt8} (h : runeToGSM7 r = some b) :
    gsm7Charset[b.toNat]? = some r := by
  have hfold : ∀ (ps : List (Char × ℕ)) (found : Option UInt8),
      (∀ p ∈ ps, gsm7Charset[p.2]? = some p.1) →
      (∀ b, found = some b → gsm7Charset[b.toNat]? = some r) → ∀ b,
      ps.foldl (fun found p => if p.1 ≠ '\x00' ∧ p.1 = r then some (UInt8.ofNat p.2) else found)
        found = some b → gsm7Charset[b.toNat]? = some r := by
    intro ps
    induction ps with
    | nil => intro found _ hfound b hb; exact hfound b hb
    | cons p ps ih =>
      intro found hps hfound
      obtain ⟨hp, hps⟩ := List.forall_mem_cons.mp hps
      rw [List.foldl_cons]
      refine ih _ hps fun b hb => ?_
      split_ifs at hb with hr
      · cases hb
        obtain ⟨hlt, -⟩ := List.getElem?_eq_some_iff.mp hp
        rw [toNat_ofNat_of_lt (Nat.lt_trans hlt (by decide +kernel)), hp, hr.2]
      · exact hfound b hb
  exact hfold gsm7Charset.zipIdx none (fun p hp => List.mem_zipIdx_iff_getElem?.mp hp) nofun b h

theorem lt_of_runeToGSM7 {r : Char} {b : UInt8} (h : runeToGSM7 r = some b) : b.toNat < 128 :=
  (List.getElem?_eq_some_iff.mp (getElem?_of_runeToGSM7 h)).1

theorem lt_of_extensionCode {r : Char} {b : UInt8} (h : extensionCode r = some b) :
    b.toNat < 128 := by
  have hall : ∀ e ∈ gsm7Extension, e.1.toNat < 128 := by decide
  obtain ⟨e, he, rfl⟩ := Option.map_eq_some_iff.mp h
  exact hall e (List.mem_of_find?_eq_some he)

theorem septets_encodeGSM7Rune (r : Char) : Septets (encodeGSM7Rune r) := by
  unfold encodeGSM7Rune
  cases hb : runeToGSM7 r with
  | some b => exact List.forall_mem_singleton.mpr (lt_of_runeToGSM7 hb)
  | none =>
    cases hx : extensionCode r with
    | some code =>
      intro x hx'
      rcases List.mem_cons.mp hx' with rfl | hx'
      · decide
      · rw [List.mem_singleton.mp hx']
        exact lt_of_extensionCode hx
    | none => exact nofun

theorem length_encodeGSM7Rune_le (r : Char) : (encodeGSM7Rune r).length ≤ 2 := by
  unfold encodeGSM7Rune
  cases runeToGSM7 r with
  | some b => exact Nat.le_succ 1
  | none => cases extensionCode r <;> simp

theorem septets_encodeGSM7Text (s : List UInt8) : Septets (encodeGSM7Text s) := by
  intro x hx
  obtain ⟨r, _, hx⟩ := List.mem_flatMap.mp hx
  exact septets_encodeGSM7Rune r x hx

theorem length_encodeGSM7Text_le (s : List UInt8) :
    (encodeGSM7Text s).length ≤ 2 * s.length := by
  have hflat : ∀ rs : List Char, (rs.flatMap encodeGSM7Rune).length ≤ 2 * rs.length := by
    intro rs
    induction rs with
    | nil => exact Nat.le_refl 0
    | cons r rs ih =>
      have hr := length_encodeGSM7Rune_le r
      rw [List.flatMap_cons, List.length_append, List.length_cons]
      omega
  exact Nat.le_trans (hflat (runes s)) (Nat.mul_le_mul_left 2 (length_runes_le s))

theorem Septets.chunk {c : List UInt8} (hc : Septets c) (k i : ℕ) : Septets (chunk k c i) :=
  fun x hx => hc x (List.mem_of_mem_drop (List.mem_of_mem_take hx))

/-- The message that `buildGSM7PDU` lays out. -/
def gsm7Submit (dest chars : List UInt8) (ref total partNum : UInt8) : Submit :=
  builtSubmit dest (0 < total) 0x00 (if 0 < total then chars.length + 7 else chars.length)
    (if 0 < total then [0x05, 0x00, 0x03, ref, total, partNum] ++ repackWithFill chars 1
      else packGSM7 chars)

theorem udhi_gsm7Submit (dest chars : List UInt8) (ref total partNum : UInt8) :
    Udhi (gsm7Submit dest chars ref total partNum).pduType ↔ 0 < total := by
  rw [gsm7Submit, udhi_builtSubmit, decide_eq_true_iff]

theorem isPart_gsm7Submit (dest chars : List UInt8) {total : UInt8} (partNum : UInt8)
    (htotal : 0 < total) :
    (gsm7Submit dest chars 0x42 total partNum).IsPart total.toNat partNum.toNat :=
  ⟨(udhi_gsm7Submit dest chars 0x42 total partNum).mpr htotal,
    total, partNum, repackWithFill chars 1, if_pos htotal, rfl, rfl⟩

theorem reads_buildGSM7PDU {dest : List UInt8} (hdest : (encodeBCDAddress dest).1 < 256)
    (chars : List UInt8) (ref total partNum : UInt8) :
    (buildGSM7PDU dest chars ref total partNum).Reads
      (gsm7Submit dest chars ref total partNum) := by
  have h := reads_builtSubmit hdest (0 < total) 0x00
    (if 0 < total then chars.length + 7 else chars.length)
    (if 0 < total then [0x05, 0x00, 0x03, ref, total, partNum] ++ repackWithFill chars 1
      else packGSM7 chars) total
  simp only [decide_eq_true_eq] at h
  exact h

/-- A PDU that carries septets as the standard asks: at most 160 of them, header included, and in
the octets they need. -/
structure Submit.CarriesSeptets (m : Submit) (dest chars : List UInt8) : Prop where
  dest_eq : m.dest = .ok dest
  udl_le : m.udl.toNat ≤ 160
  ud_length : m.ud.length = (7 * m.udl.toNat + 7) / 8
  septets_eq : m.septets = .ok chars

theorem Submit.CarriesSeptets.ud_le {m : Submit} {dest chars : List UInt8}
    (h : m.CarriesSeptets dest chars) : m.ud.length ≤ 140 := by
  have hudl := h.udl_le
  rw [h.ud_length]
  omega

/-- The septets of a part of a longer message. -/
theorem septets_gsm7Submit_part (dest : List UInt8) {chars : List UInt8} (hc : Septets chars)
    (hmax : chars.length ≤ maxGSM7ConcatChars) (ref : UInt8) {total : UInt8} (partNum : UInt8)
    (htotal : 0 < total) :
    (gsm7Submit dest chars ref total partNum).udl.toNat = 7 + chars.length ∧
      (gsm7Submit dest chars ref total partNum).septets = .ok chars := by
  have hmax' : chars.length ≤ 153 := hmax
  have hudl : (gsm7Submit dest chars ref total partNum).udl.toNat = 7 + chars.length := by
    dsimp only [gsm7Submit, builtSubmit]
    rw [if_pos htotal, toNat_ofNat_of_lt (by omega), Nat.add_comm]
  have hud : (gsm7Submit dest chars ref total partNum).ud =
      [0x05, 0x00, 0x03, ref, total, partNum] ++ repackWithFill chars 1 := if_pos htotal
  have hflag := (udhi_gsm7Submit dest chars ref total partNum).mpr htotal
  refine ⟨hudl, ?_⟩
  -- six octets and a fill bit are seven septets
  obtain ⟨codes, hcodes, hdrop⟩ : ∃ codes,
      (unpackGSM7 ([0x05, 0x00, 0x03, ref, total, partNum] ++ repackWithFill chars 1)
        (7 + chars.length) : Outcome DecodeErr (List UInt8)) = .ok codes ∧
      codes.drop 7 = chars := drop_unpackGSM7_repackWithFill hc rfl
  rw [Submit.septets, hudl, hud, hcodes, ok_bind, if_pos hflag, hdrop]
  rfl

/-- The septets of a message in one part. -/
theorem septets_gsm7Submit_single (dest : List UInt8) {chars : List UInt8} (hc : Septets chars)
    (hmax : chars.length ≤ maxGSM7Chars) :
    (gsm7Submit dest chars 0 0 0).udl.toNat = chars.length ∧
      (gsm7Submit dest chars 0 0 0).septets = .ok chars := by
  have hmax' : chars.length ≤ 160 := hmax
  have hudl : (gsm7Submit dest chars 0 0 0).udl.toNat = chars.length :=
    toNat_ofNat_of_lt (show chars.length < 256 by omega)
  refine ⟨hudl, ?_⟩
  rw [Submit.septets, hudl]
  change (unpackGSM7 (packGSM7 chars) chars.length >>= _) = _
  rw [unpackGSM7_packGSM7 hc, ok_bind, if_neg (by rw [udhi_gsm7Submit]; decide), List.drop_zero]
  rfl

section Part

variable {ds : List UInt8} (hlen : ds.length < 256) (hds : ∀ d ∈ ds, isDigit d)

include hlen hds

/-- A message in one part. -/
theorem carriesSeptets_single {chars : List UInt8} (hc : Septets chars)
    (hmax : chars.length ≤ maxGSM7Chars) :
    (gsm7Submit (0x2B :: ds) chars 0 0 0).CarriesSeptets (0x2B :: ds) chars := by
  obtain ⟨hudl, hseptets⟩ := septets_gsm7Submit_single (0x2B :: ds) hc hmax
  have hmax' : chars.length ≤ 160 := hmax
  refine ⟨dest_builtSubmit hlen hds _ _ _ _, by omega, ?_, hseptets⟩
  rw [hudl, Nat.mul_comm]
  exact length_packGSM7 chars

/-- A part of a longer message. -/
theorem carriesSeptets_part {chars : List UInt8} (hc : Septets chars)
    (hmax : chars.length ≤ maxGSM7ConcatChars) (ref : UInt8) {total : UInt8} (partNum : UInt8)
    (htotal : 0 < total) :
    (gsm7Submit (0x2B :: ds) chars ref total partNum).CarriesSeptets (0x2B :: ds) chars := by
  obtain ⟨hudl, hseptets⟩ := septets_gsm7Submit_part (0x2B :: ds) hc hmax ref partNum htotal
  have hmax' : chars.length ≤ 153 := hmax
  have hud : (gsm7Submit (0x2B :: ds) chars ref total partNum).ud =
      [0x05, 0x00, 0x03, ref, total, partNum] ++ repackWithFill chars 1 := if_pos htotal
  refine ⟨dest_builtSubmit hlen hds _ _ _ _, by omega, ?_, hseptets⟩
  rw [hudl, hud, List.length_append, length_repackWithFill]
  simp only [List.length_cons, List.length_nil]
  omega

end Part

theorem numParts_bounds {n : ℕ} (h1 : maxGSM7Chars < n) (h2 : n ≤ 20000) :
    2 ≤ numParts maxGSM7ConcatChars n ∧ numParts maxGSM7ConcatChars n ≤ 255 := by
  unfold numParts maxGSM7ConcatChars maxGSM7Chars at *
  omega

/-- **Outgoing GSM7 messages are split and packed without loss.**  Read in the SMS-SUBMIT layout,
every PDU has the destination, at most 160 septets in at most 140 octets of user data, and the
right `Length`; parts are numbered; and the septets of the PDUs, in order, are those of the
text. -/
theorem encodePDU_gsm7_lossless {dest body : List UInt8} (hdest : validE164 dest)
    (hbody : body.length ≤ 10000) :
    ∃ pdus ms parts, encodePDU dest body (lit "GSM7") = .ok pdus ∧
      List.Forall₂ EncodedPDU.Reads pdus ms ∧
      List.Forall₂ (fun (m : Submit) chars => m.CarriesSeptets dest chars ∧ m.ud.length ≤ 140) ms
        parts ∧
      (ms.length = 1 → ∀ m ∈ ms, ¬ Udhi m.pduType) ∧
      (1 < ms.length → ms.length ≤ 255 ∧
        ∀ (i : ℕ) (m : Submit), ms[i]? = some m → m.IsPart ms.length (i + 1)) ∧
      parts.flatten = encodeGSM7Text body := by
  obtain ⟨ds, rfl, hds, -, hlen15⟩ := exists_digits_of_validE164 hdest
  have hlen : ds.length < 256 := by omega
  have hda : (encodeBCDAddress (0x2B :: ds)).1 < 256 := hlen
  have hc := septets_encodeGSM7Text body
  have hcl := length_encodeGSM7Text_le body
  have henc : encodePDU (0x2B :: ds) body (lit "GSM7") =
      .ok (encodeGSM7PDUs (0x2B :: ds) body) := rfl
  rw [henc, encodeGSM7PDUs]
  generalize encodeGSM7Text body = c at *
  obtain ⟨ms, hms, hcarries⟩ : ∃ ms,
      SplitReads (splitParts maxGSM7Chars maxGSM7ConcatChars (buildGSM7PDU (0x2B :: ds)) c) ms ∧
      List.Forall₂ (fun (m : Submit) chars =>
        m.CarriesSeptets (0x2B :: ds) chars ∧ m.ud.length ≤ 140) ms
        (partUnits maxGSM7Chars maxGSM7ConcatChars c) := by
    refine exists_splitReads (gsm7Submit (0x2B :: ds)) _ (reads_buildGSM7PDU hda) ?_ ?_ ?_ ?_ ?_
    · rw [udhi_gsm7Submit]
      decide
    · exact fun chars total partNum htotal => isPart_gsm7Submit (0x2B :: ds) chars partNum htotal
    · intro hle
      have hsingle := carriesSeptets_single hlen hds hc hle
      exact ⟨hsingle, hsingle.ud_le⟩
    · intro i total partNum htotal
      have hpart := carriesSeptets_part hlen hds (hc.chunk _ i) (length_chunk_le _ c i) 0x42
        partNum htotal
      exact ⟨hpart, hpart.ud_le⟩
    · exact fun hlt => numParts_bounds hlt (show c.length ≤ 20000 by omega)
  exact ⟨_, ms, partUnits maxGSM7Chars maxGSM7ConcatChars c, rfl, hms.reads, hcarries, hms.single,
    hms.parts, flatten_partUnits _ (by decide) c⟩

theorem length_encodeGSM7PDUs_letters :
    (encodeGSM7PDUs (lit "+4915112345678") (List.replicate 161 0x41)).length = 2 := by
  decide +kernel

/-- A message of 161 letters makes two parts. -/
theorem encodePDU_gsm7_lossless_two_parts : ∃ pdus ms parts,
    encodePDU (lit "+4915112345678") (List.replicate 161 0x41) (lit "GSM7") = .ok pdus ∧
      pdus.length = 2 ∧ List.Forall₂ EncodedPDU.Reads pdus ms ∧
      List.Forall₂ (fun (m : Submit) chars =>
        m.CarriesSeptets (lit "+4915112345678") chars ∧ m.ud.length ≤ 140) ms parts ∧
      (∀ (i : ℕ) (m : Submit), ms[i]? = some m → m.IsPart 2 (i + 1)) ∧
      parts.flatten = encodeGSM7Text (List.replicate 161 0x41) := by
  have hlength : (List.replicate 161 (0x41 : UInt8)).length ≤ 10000 := by
    rw [List.length_replicate]
    decide
  obtain ⟨pdus, ms, parts, henc, hreads, hcarries, -, hparts, hflat⟩ :=
    encodePDU_gsm7_lossless (show validE164 (lit "+4915112345678") by decide) hlength
  have htwo : pdus.length = 2 := by
    rw [← Except.ok.inj henc]
    exact length_encodeGSM7PDUs_letters
  have hms : ms.length = 2 := hreads.length_eq.symm.trans htwo
  rw [hms] at hparts
  exact ⟨pdus, ms, parts, henc, htwo, hreads, hcarries, (hparts (by decide)).2, hflat⟩

/-! ### UCS2 messages -/

/-- The message that `buildUCS2PDU` lays out. -/
def ucs2Submit (dest : List UInt8) (rs : List Char) (ref total partNum : UInt8) : Submit :=
  let ud := (if 0 < total then [0x05, 0x00, 0x03, ref, total, partNum] else []) ++
    encodeUCS2 (encodeRunes rs)
  builtSubmit dest (0 < total) 0x08 ud.length ud

theorem reads_buildUCS2PDU {dest : List UInt8} (hdest : (encodeBCDAddress dest).1 < 256)
    (rs : List Char) (ref total partNum : UInt8) :
    (buildUCS2PDU dest rs ref total partNum).Reads
      (ucs2Submit dest rs ref total partNum) := by
  have h := reads_builtSubmit hdest (0 < total) 0x08
    ((if 0 < total then [0x05, 0x00, 0x03, ref, total, partNum] else []) ++
      encodeUCS2 (encodeRunes rs)).length
    ((if 0 < total then [0x05, 0x00, 0x03, ref, total, partNum] else []) ++
      encodeUCS2 (encodeRunes rs)) total
  simp only [decide_eq_true_eq] at h
  rw [buildUCS2PDU, ucs2Octets]
  dsimp only
  rw [List.append_assoc _ (if 0 < total then _ else _),
    ← List.length_append.trans (Nat.add_comm _ _)]
  exact h

theorem length_encodeUCS2 (rs : List Char) :
    (encodeUCS2 (encodeRunes rs)).length = 2 * (rs.map Utf16.units).sum := by
  have hpair : ∀ us : List UInt16, (us.flatMap fun u : UInt16 =>
      [UInt8.ofNat (u.toNat / 256), UInt8.ofNat u.toNat]).length = 2 * us.length := by
    intro us
    rw [List.length_flatMap]
    simp [Nat.mul_comm]
  rw [encodeUCS2, runes_encodeRunes, hpair, Utf16.length_encode]

/-- The user data fits one PDU and is announced with its length. -/
def Submit.FitsUCS2 (m : Submit) : Prop := m.ud.length ≤ 140 ∧ m.udl.toNat = m.ud.length

theorem fitsUCS2_iff (dest : List UInt8) (rs : List Char) (ref total partNum : UInt8) :
    (ucs2Submit dest rs ref total partNum).FitsUCS2 ↔
      (rs.map Utf16.units).sum ≤ if 0 < total then maxUCS2ConcatChars else maxUCS2Chars := by
  have hud : (ucs2Submit dest rs ref total partNum).ud.length =
      (if 0 < total then 6 else 0) + 2 * (rs.map Utf16.units).sum := by
    change (List.length (_ ++ _)) = _
    rw [List.length_append, length_encodeUCS2]
    split_ifs <;> rfl
  have hudl : (ucs2Submit dest rs ref total partNum).udl.toNat =
      (ucs2Submit dest rs ref total partNum).ud.length % 256 := UInt8.toNat_ofNat'
  rw [Submit.FitsUCS2, hudl, hud]
  unfold maxUCS2ConcatChars maxUCS2Chars
  split_ifs <;> omega

/-- Every part of a text has room for its UTF-16 units: one part of at most 70 characters has at
most 70 of them, and of the parts of 67 characters each has at most 67. -/
def FitsParts (rs : List Char) : Prop :=
  if rs.length ≤ maxUCS2Chars then (rs.map Utf16.units).sum ≤ maxUCS2Chars
  else ∀ i < numParts maxUCS2ConcatChars rs.length,
    ((chunk maxUCS2ConcatChars rs i).map Utf16.units).sum ≤ maxUCS2ConcatChars

instance (rs : List Char) : Decidable (FitsParts rs) :=
  inferInstanceAs (Decidable (if rs.length ≤ maxUCS2Chars then _ else ∀ i < _, _))

/-- A PDU is read in one way only. -/
theorem EncodedPDU.Reads.unique {p : EncodedPDU} {m m' : Submit} (h : p.Reads m)
    (h' : p.Reads m') : m = m' := by
  obtain ⟨raw, hraw, hm, -⟩ := h
  obtain ⟨raw', hraw', hm', -⟩ := h'
  rw [hraw] at hraw'
  cases hraw'
  rw [hm] at hm'
  exact Option.some_inj.mp hm'

theorem exists_forall_reads_iff {pdus : List EncodedPDU} {ms : List Submit}
    (h : List.Forall₂ EncodedPDU.Reads pdus ms) (P : Submit → Prop) :
    (∃ pdus' ms', (.ok pdus : Except EncodeErr _) = .ok pdus' ∧
      List.Forall₂ EncodedPDU.Reads pdus' ms' ∧ ∀ m ∈ ms', P m) ↔ ∀ m ∈ ms, P m := by
  constructor
  · rintro ⟨pdus', ms', hpdus, h', hP⟩
    cases hpdus
    have hunique : Relator.RightUnique EncodedPDU.Reads := fun _ _ _ => EncodedPDU.Reads.unique
    rwa [List.right_unique_forall₂' hunique h h']
  · exact fun hP => ⟨pdus, ms, rfl, h, hP⟩

/-- **When UCS2 user data fits its PDUs.** -/
theorem encodePDU_ucs2_fits_iff {dest body : List UInt8} (hdest : validE164 dest)
    (hbody : body.length ≤ 10000) :
    (∃ pdus ms, encodePDU dest body (lit "UCS2") = .ok pdus ∧
      List.Forall₂ EncodedPDU.Reads pdus ms ∧ ∀ m ∈ ms, m.FitsUCS2) ↔ FitsParts (runes body) := by
  obtain ⟨ds, rfl, hds, -, hlen15⟩ := exists_digits_of_validE164 hdest
  have hlen : ds.length < 256 := by omega
  have hda : (encodeBCDAddress (0x2B :: ds)).1 < 256 := hlen
  have hruns := length_runes_le body
  have henc : encodePDU (0x2B :: ds) body (lit "UCS2") =
      .ok (encodeUCS2PDUs (0x2B :: ds) body) := rfl
  rw [henc, encodeUCS2PDUs, splitParts_eq, FitsParts]
  generalize runes body = rs at *
  split_ifs with hsingle
  · rw [exists_forall_reads_iff (.cons (reads_buildUCS2PDU hda rs 0 0 0) .nil),
      List.forall_mem_singleton, fitsUCS2_iff]
    rfl
  · have hbounds : 0 < numParts maxUCS2ConcatChars rs.length ∧
        numParts maxUCS2ConcatChars rs.length < 256 := by
      unfold numParts maxUCS2ConcatChars maxUCS2Chars at *
      omega
    generalize numParts maxUCS2ConcatChars rs.length = n at *
    have htotal : 0 < UInt8.ofNat n := by
      rw [UInt8.lt_iff_toNat_lt, toNat_ofNat_of_lt hbounds.2]
      exact hbounds.1
    have hreads : List.Forall₂ EncodedPDU.Reads
        ((List.range n).map fun i => buildUCS2PDU (0x2B :: ds) (chunk maxUCS2ConcatChars rs i) 0x42
          (UInt8.ofNat n) (UInt8.ofNat (i + 1)))
        ((List.range n).map fun i => ucs2Submit (0x2B :: ds) (chunk maxUCS2ConcatChars rs i) 0x42
          (UInt8.ofNat n) (UInt8.ofNat (i + 1))) := by
      rw [List.forall₂_map_left_iff, List.forall₂_map_right_iff, List.forall₂_same]
      exact fun i _ => reads_buildUCS2PDU hda _ _ _ _
    rw [exists_forall_reads_iff hreads, List.forall_mem_map]
    simp only [fitsUCS2_iff, if_pos htotal, List.mem_range]

/-- Seventy characters of the basic plane fill one PDU. -/
theorem encodePDU_ucs2_fits_cyrillic : ∃ pdus ms,
    encodePDU (lit "+4915112345678") (encodeRunes (List.replicate 70 'ж')) (lit "UCS2") = .ok pdus ∧
      List.Forall₂ EncodedPDU.Reads pdus ms ∧ ∀ m ∈ ms, m.FitsUCS2 :=
  (encodePDU_ucs2_fits_iff (show validE164 (lit "+4915112345678") by decide)
    (by decide +kernel)).mpr (by rw [runes_encodeRunes]; decide +kernel)

/-- Seventy emoji are sent as one PDU with 280 octets of user data, announced as 24. -/
theorem encodePDU_ucs2_emoji : ∃ p m,
    Valid (encodeRunes (List.replicate 70 '😀')) ∧
    (encodeRunes (List.replicate 70 '😀')).length = 280 ∧
    encodePDU (lit "+4915112345678") (encodeRunes (List.replicate 70 '😀')) (lit "UCS2") = .ok [p] ∧
    p.Reads m ∧ m.ud.length = 280 ∧ m.udl = 24 := by
  have hlen : (List.replicate 70 '😀').length ≤ maxUCS2Chars := by decide
  have hpdus : encodePDU (lit "+4915112345678") (encodeRunes (List.replicate 70 '😀')) (lit "UCS2") =
      .ok (encodeUCS2PDUs (lit "+4915112345678") (encodeRunes (List.replicate 70 '😀'))) := rfl
  rw [encodeUCS2PDUs, runes_encodeRunes, splitParts_eq, if_pos hlen] at hpdus
  have hda : (encodeBCDAddress (lit "+4915112345678")).1 < 256 := by decide
  have hreads := reads_buildUCS2PDU hda (List.replicate 70 '😀') 0 0 0
  refine ⟨_, _, valid_encodeRunes _, by decide +kernel, hpdus, hreads, ?_, ?_⟩
  · change (List.length (_ ++ _)) = _
    rw [List.length_append, length_encodeUCS2]
    decide
  · change UInt8.ofNat (List.length (_ ++ _)) = _
    rw [List.length_append, length_encodeUCS2]
    decide

end SmsGate.At
