import SmsGate.At.Equiv.Gsm7
import SmsGate.At.Equiv.Reassembly
import SmsGate.At.Equiv.Roundtrip

/-!
# What each PDU of a message says

* `encodePDU_gsm7_represents_iff`: with the encoding GSM7 every character of the body has septets of
  its own exactly if the body is one that `IsGSM7` accepts.  `EncodePDU` asks this only if no
  encoding was given;
* `encodePDU_gsm7_pieces_iff`: the parts of a GSM7 message, each decoded on its own, give the body
  exactly if none ends in an escape.  The cut comes every 153 septets, whatever stands there;
* `encodePDU_ucs2_pieces`: those of a UCS2 message always do, since the cut is between runes.
-/

namespace SmsGate.At

open Go Go.Utf8 Go.Outcome

/-! ### Characters without septets -/

theorem encodeGSM7Rune_ne_nil_iff (r : Char) : encodeGSM7Rune r ≠ [] ↔ Encodable r := by
  unfold encodeGSM7Rune Encodable
  cases runeToGSM7 r with
  | some b => simp
  | none => cases extensionCode r <;> simp

theorem encodeGSM7Text_encodeRune (r : Char) :
    encodeGSM7Text (encodeRune r) = encodeGSM7Rune r := by
  have hrune : runes (encodeRune r) = [r] := by
    rw [← runes_encodeRunes [r], encodeRunes, List.flatMap_singleton]
  rw [encodeGSM7Text, hrune, List.flatMap_singleton]

/-- The PDUs carry these septets, each its own share of them. -/
def CarryInTurn (dest : List UInt8) (pdus : List EncodedPDU) (septets : List UInt8) : Prop :=
  ∃ parts, List.Forall₂ (fun p chars => ∃ ref total partNum,
    p = buildGSM7PDU dest chars ref total partNum) pdus parts ∧ parts.flatten = septets

theorem carryInTurn_encodeGSM7PDUs (dest body : List UInt8) :
    CarryInTurn dest (encodeGSM7PDUs dest body) (encodeGSM7Text body) := by
  refine ⟨partUnits maxGSM7Chars maxGSM7ConcatChars (encodeGSM7Text body), ?_,
    flatten_partUnits _ (by decide) _⟩
  rw [encodeGSM7PDUs, splitParts_eq, partUnits]
  split_ifs
  · exact .cons ⟨0, 0, 0, rfl⟩ .nil
  · rw [List.forall₂_map_left_iff, List.forall₂_map_right_iff, List.forall₂_same]
    exact fun i _ => ⟨_, _, _, rfl⟩

/-- **Which characters an explicit GSM7 message has.**  For every destination and body `EncodePDU`
succeeds, and its PDUs carry the septets of the characters one after the other; each character has
at least one exactly if `IsGSM7` accepts the body. -/
theorem encodePDU_gsm7_represents_iff (dest body : List UInt8) :
    ∃ pdus, encodePDU dest body (lit "GSM7") = .ok pdus ∧
      CarryInTurn dest pdus ((runes body).flatMap fun r => encodeGSM7Text (encodeRune r)) ∧
      ((∀ r ∈ runes body, 1 ≤ (encodeGSM7Text (encodeRune r)).length) ↔ isGSM7 body) := by
  refine ⟨encodeGSM7PDUs dest body, rfl, ?_, ?_⟩
  · simp only [encodeGSM7Text_encodeRune]
    exact carryInTurn_encodeGSM7PDUs dest body
  · simp only [encodeGSM7Text_encodeRune, isGSM7_iff, Nat.one_le_iff_ne_zero, ne_eq,
      List.length_eq_zero_iff]
    exact forall₂_congr fun r _ => encodeGSM7Rune_ne_nil_iff r

/-- A message of one Cyrillic letter is sent without it. -/
theorem not_encodePDU_gsm7_represents :
    Valid (lit "ж") ∧ runes (lit "ж") = ['ж'] ∧ encodeGSM7Text (encodeRune 'ж') = [] ∧
      encodePDU (lit "+4915112345678") (lit "ж") (lit "GSM7") =
        .ok [buildGSM7PDU (lit "+4915112345678") [] 0 0 0] := by
  decide

/-! ### Pieces of septets -/

/-- A text of runes that all have septets is valid. -/
theorem valid_of_encodable {body : List UInt8} (hbody : ∀ r ∈ runes body, Encodable r) :
    Valid body := by
  have herror : ¬ Encodable runeError := by
    unfold Encodable
    decide
  have hpieces : ∀ p ∈ pieces body, p.2 = encodeRune p.1 := by
    intro p hp
    rcases mem_pieces hp with h | ⟨h, -⟩
    · exact h
    · have hmem : p.1 ∈ runes body := List.mem_map_of_mem hp
      rw [h] at hmem
      exact absurd (hbody _ hmem) herror
  rw [Valid, encodeRunes, runes, List.flatMap_map, ← List.flatMap_congr hpieces,
    flatMap_snd_pieces]

/-- The septets of a GSM7 message, PDU by PDU. -/
theorem exists_septets_encodeGSM7PDUs {dest body : List UInt8}
    (hdest : (encodeBCDAddress dest).1 < 256) (hbody : body.length ≤ 10000) :
    ∃ ms, SplitReads (encodeGSM7PDUs dest body) ms ∧
      List.Forall₂ (fun (m : Submit) chars => m.septets = .ok chars) ms
        (partUnits maxGSM7Chars maxGSM7ConcatChars (encodeGSM7Text body)) := by
  have hc := septets_encodeGSM7Text body
  have hcl := length_encodeGSM7Text_le body
  refine exists_splitReads (gsm7Submit dest) _ (reads_buildGSM7PDU hdest) ?_ ?_ ?_ ?_ ?_
  · rw [udhi_gsm7Submit]
    decide
  · exact fun chars total partNum htotal => isPart_gsm7Submit dest chars partNum htotal
  · exact fun hle => (septets_gsm7Submit_single dest hc hle).2
  · intro i total partNum htotal
    exact (septets_gsm7Submit_part dest (hc.chunk _ i) (length_chunk_le _ _ i) 0x42 partNum
      htotal).2
  · exact fun hlt => numParts_bounds hlt (by omega)

/-- The text of a PDU, decoded on its own. -/
def Submit.gsm7Text (m : Submit) : Outcome DecodeErr (List UInt8) := do
  let codes ← m.septets
  decodeGSM7Text codes

/-- The texts of the PDUs, one after the other. -/
def joinTexts (text : Submit → Outcome DecodeErr (List UInt8)) (ms : List Submit) :
    Outcome DecodeErr (List UInt8) := do
  let texts ← ms.mapM text
  return texts.flatten

theorem joinTexts_eq {α : Type} {text : Submit → Outcome DecodeErr (List UInt8)}
    {ms : List Submit} {units : List α} {f : α → List UInt8}
    (h : List.Forall₂ (fun m u => text m = .ok (f u)) ms units) :
    joinTexts text ms = .ok (units.flatMap f) := by
  have htexts : ms.mapM text = .ok (units.map f) := by
    induction h with
    | nil => rfl
    | cons hm _ ih => rw [List.mapM_cons, hm, ok_bind, ih, ok_bind]; rfl
  rw [joinTexts, htexts, ok_bind, List.flatMap_def]
  rfl

/-- What comes out of septets that are decoded piece by piece. -/
theorem joinTexts_gsm7Text {ms : List Submit} {parts : List (List UInt8)}
    (h : List.Forall₂ (fun (m : Submit) chars => m.septets = .ok chars) ms parts) :
    joinTexts Submit.gsm7Text ms = .ok (encodeRunes (parts.flatMap gsm7Runes)) := by
  have htexts : List.Forall₂ (fun m chars => m.gsm7Text = .ok (encodeRunes (gsm7Runes chars))) ms
      parts := by
    refine h.imp fun m chars hm => ?_
    rw [Submit.gsm7Text, hm, ok_bind, decodeGSM7Text_eq]
  rw [joinTexts_eq htexts, encodeRunes, List.flatMap_assoc]
  rfl

/-- **When the parts of a GSM7 message can be decoded one by one.**  The body is what comes out
exactly if no part ends in the escape of an extension character. -/
theorem encodePDU_gsm7_pieces_iff {dest body : List UInt8}
    (hdest : (encodeBCDAddress dest).1 < 256)
    (hrunes : ∀ r ∈ runes body, Encodable r ∧ r ≠ escapeRune) (hbody : body.length ≤ 10000) :
    ∃ pdus ms, encodePDU dest body (lit "GSM7") = .ok pdus ∧
      List.Forall₂ EncodedPDU.Reads pdus ms ∧
      (joinTexts Submit.gsm7Text ms = .ok body ↔
        ∀ part ∈ partUnits maxGSM7Chars maxGSM7ConcatChars (encodeGSM7Text body),
          part.getLast? ≠ some 0x1B) := by
  have hencodable : ∀ r ∈ runes body, Encodable r := fun r hr => (hrunes r hr).1
  have hescape : escapeRune ∉ runes body := fun h => (hrunes _ h).2 rfl
  have hvalid := valid_of_encodable hencodable
  obtain ⟨ms, hms, hseptets⟩ := exists_septets_encodeGSM7PDUs hdest hbody
  refine ⟨encodeGSM7PDUs dest body, ms, rfl, hms.reads, ?_⟩
  have hflatten := flatten_partUnits maxGSM7Chars (show 0 < maxGSM7ConcatChars by decide)
    (encodeGSM7Text body)
  have hall : gsm7Runes (encodeGSM7Text body) = runes body :=
    gsm7Runes_flatMap_encodeGSM7Rune hencodable hescape
  have htext : TextSeptets (encodeGSM7Text body) := textSeptets_flatMap hencodable hescape
  rw [joinTexts_gsm7Text hseptets, ← flatMap_gsm7Runes_iff (by rwa [hflatten]), hflatten, hall,
    Outcome.ok.injEq]
  constructor
  · intro h
    apply encodeRunes_injective
    rw [h]
    exact hvalid.symm
  · intro h
    rw [h]
    exact hvalid

/-- A body with one character of the extension table. -/
def bracketBody (before after : ℕ) : List UInt8 :=
  encodeRunes (List.replicate before 'a' ++ '[' :: List.replicate after 'a')

theorem encodable_bracketBody (m n : ℕ) :
    ∀ r ∈ runes (bracketBody m n), Encodable r ∧ r ≠ escapeRune := by
  have ha : Encodable 'a' ∧ 'a' ≠ escapeRune := by
    unfold Encodable
    decide
  have hbracket : Encodable '[' ∧ '[' ≠ escapeRune := by
    unfold Encodable
    decide
  intro r hr
  rw [bracketBody, runes_encodeRunes, List.mem_append, List.mem_cons] at hr
  rcases hr with hr | rfl | hr
  · rw [List.eq_of_mem_replicate hr]
    exact ha
  · exact hbracket
  · rw [List.eq_of_mem_replicate hr]
    exact ha

/-- A bracket in front of the cut. -/
theorem encodePDU_gsm7_pieces_iff_bracket : ∃ pdus ms,
    encodePDU (lit "+4915112345678") (bracketBody 150 12) (lit "GSM7") = .ok pdus ∧
      List.Forall₂ EncodedPDU.Reads pdus ms ∧
      joinTexts Submit.gsm7Text ms = .ok (bracketBody 150 12) := by
  have hrunes := encodable_bracketBody 150 12
  obtain ⟨pdus, ms, henc, hreads, hiff⟩ := encodePDU_gsm7_pieces_iff
    (show (encodeBCDAddress (lit "+4915112345678")).1 < 256 by decide) hrunes
    (show (bracketBody 150 12).length ≤ 10000 by decide +kernel)
  refine ⟨pdus, ms, henc, hreads, hiff.mpr ?_⟩
  rw [encodeGSM7Text, bracketBody, runes_encodeRunes]
  decide +kernel

/-- A bracket on the cut comes out as a less-than sign. -/
theorem not_encodePDU_gsm7_pieces : ∃ pdus ms,
    (∀ r ∈ runes (bracketBody 152 10), Encodable r ∧ r ≠ escapeRune) ∧
      encodePDU (lit "+4915112345678") (bracketBody 152 10) (lit "GSM7") = .ok pdus ∧
      List.Forall₂ EncodedPDU.Reads pdus ms ∧
      joinTexts Submit.gsm7Text ms =
        .ok (encodeRunes (List.replicate 152 'a' ++ '<' :: List.replicate 10 'a')) ∧
      joinTexts Submit.gsm7Text ms ≠ .ok (bracketBody 152 10) := by
  have hrunes := encodable_bracketBody 152 10
  obtain ⟨ms, hms, hseptets⟩ := exists_septets_encodeGSM7PDUs
    (show (encodeBCDAddress (lit "+4915112345678")).1 < 256 by decide)
    (show (bracketBody 152 10).length ≤ 10000 by decide +kernel)
  have htext : joinTexts Submit.gsm7Text ms =
      .ok (encodeRunes (List.replicate 152 'a' ++ '<' :: List.replicate 10 'a')) := by
    have hcut : (partUnits maxGSM7Chars maxGSM7ConcatChars
        ((List.replicate 152 'a' ++ '[' :: List.replicate 10 'a').flatMap encodeGSM7Rune)).flatMap
          gsm7Runes = List.replicate 152 'a' ++ '<' :: List.replicate 10 'a' := by decide +kernel
    rw [joinTexts_gsm7Text hseptets, encodeGSM7Text, bracketBody, runes_encodeRunes, hcut]
  refine ⟨_, ms, hrunes, rfl, hms.reads, htext, ?_⟩
  rw [htext, bracketBody]
  intro h
  exact absurd (encodeRunes_injective (Outcome.ok.inj h)) (by decide)

/-! ### Pieces of UTF-16 -/

/-- The text of a PDU in UCS2: all that follows the header. -/
def Submit.ucs2Text (m : Submit) : Outcome DecodeErr (List UInt8) :=
  decodeUCS2 (m.ud.drop (if Udhi m.pduType then 6 else 0))

theorem udhi_ucs2Submit (dest : List UInt8) (rs : List Char) (ref total partNum : UInt8) :
    Udhi (ucs2Submit dest rs ref total partNum).pduType ↔ 0 < total := by
  rw [ucs2Submit, udhi_builtSubmit, decide_eq_true_iff]

theorem isPart_ucs2Submit (dest : List UInt8) (rs : List Char) {total : UInt8} (partNum : UInt8)
    (htotal : 0 < total) :
    (ucs2Submit dest rs 0x42 total partNum).IsPart total.toNat partNum.toNat :=
  ⟨(udhi_ucs2Submit dest rs 0x42 total partNum).mpr htotal, total, partNum,
    encodeUCS2 (encodeRunes rs), ud_ucs2Submit_part dest rs 0x42 partNum htotal, rfl, rfl⟩

theorem decodeUCS2_encodeUCS2 (rs : List Char) :
    (decodeUCS2 (encodeUCS2 (encodeRunes rs)) : Outcome DecodeErr (List UInt8)) =
      .ok (encodeRunes rs) := by
  rw [decodeUCS2_eq, encodeRunes_decode_encodeUCS2 (valid_encodeRunes rs)]

/-- The text of a PDU is that of its runes, with a header in front or not. -/
theorem ucs2Text_ucs2Submit (dest : List UInt8) (rs : List Char) (ref total partNum : UInt8) :
    (ucs2Submit dest rs ref total partNum).ucs2Text = .ok (encodeRunes rs) := by
  rw [Submit.ucs2Text]
  by_cases htotal : 0 < total
  · rw [if_pos ((udhi_ucs2Submit dest rs ref total partNum).mpr htotal),
      ud_ucs2Submit_part dest rs ref partNum htotal]
    exact decodeUCS2_encodeUCS2 rs
  · have hud : (ucs2Submit dest rs ref total partNum).ud = encodeUCS2 (encodeRunes rs) := by
      change (if 0 < total then _ else _) ++ _ = _
      rw [if_neg htotal, List.nil_append]
    rw [if_neg (by rwa [udhi_ucs2Submit]), List.drop_zero, hud, decodeUCS2_encodeUCS2]

/-- **The parts of a UCS2 message carry the whole text.**  There are at most 255 of them; several
are numbered by their headers, `Length` counts the octets behind the first, and their texts one
after the other are the body. -/
theorem encodePDU_ucs2_pieces {dest body : List UInt8} (hdest : validE164 dest)
    (hvalid : Valid body) (hbody : body.length ≤ 10000) :
    ∃ pdus ms, encodePDU dest body (lit "UCS2") = .ok pdus ∧
      List.Forall₂ EncodedPDU.Reads pdus ms ∧ pdus.length ≤ 255 ∧
      (pdus.length = 1 → ∀ m ∈ ms, ¬ Udhi m.pduType) ∧
      (1 < pdus.length → ∀ (i : ℕ) (m : Submit), ms[i]? = some m →
        m.IsPart pdus.length (i + 1)) ∧
      joinTexts Submit.ucs2Text ms = .ok body := by
  obtain ⟨ds, rfl, -, -, hlen15⟩ := exists_digits_of_validE164 hdest
  have hda : (encodeBCDAddress (0x2B :: ds)).1 < 256 := show ds.length < 256 by omega
  have hrunes := length_runes_le body
  obtain ⟨ms, hms, htexts⟩ : ∃ ms, SplitReads (encodeUCS2PDUs (0x2B :: ds) body) ms ∧
      List.Forall₂ (fun (m : Submit) rs => m.ucs2Text = .ok (encodeRunes rs)) ms
        (partUnits maxUCS2Chars maxUCS2ConcatChars (runes body)) := by
    refine exists_splitReads (ucs2Submit (0x2B :: ds)) _ (reads_buildUCS2PDU hda) ?_ ?_ ?_ ?_ ?_
    · rw [udhi_ucs2Submit]
      decide
    · exact fun rs total partNum htotal => isPart_ucs2Submit (0x2B :: ds) rs partNum htotal
    · exact fun _ => ucs2Text_ucs2Submit _ _ _ _ _
    · exact fun _ _ _ _ => ucs2Text_ucs2Submit _ _ _ _ _
    · intro hlt
      unfold numParts maxUCS2ConcatChars maxUCS2Chars at *
      omega
  have hlength : (encodeUCS2PDUs (0x2B :: ds) body).length = ms.length := hms.reads.length_eq
  have htext : joinTexts Submit.ucs2Text ms = .ok body := by
    have hflatten := flatten_partUnits maxUCS2Chars (show 0 < maxUCS2ConcatChars by decide)
      (runes body)
    rw [joinTexts_eq htexts]
    unfold encodeRunes
    rw [← List.flatMap_assoc, List.flatMap_id', hflatten]
    exact congrArg _ hvalid
  refine ⟨_, ms, rfl, hms.reads, ?_, ?_, ?_, htext⟩
  · rw [hlength]
    by_cases hone : 1 < ms.length
    · exact (hms.parts hone).1
    · omega
  · rw [hlength]
    exact hms.single
  · rw [hlength]
    exact fun hone => (hms.parts hone).2

/-- Seventy-one emoji are sent in two parts, and no surrogate pair is divided. -/
theorem encodePDU_ucs2_pieces_emoji : ∃ pdus ms,
    encodePDU (lit "+4915112345678") (encodeRunes (List.replicate 71 '😀')) (lit "UCS2") =
        .ok pdus ∧
      List.Forall₂ EncodedPDU.Reads pdus ms ∧
      joinTexts Submit.ucs2Text ms = .ok (encodeRunes (List.replicate 71 '😀')) := by
  obtain ⟨pdus, ms, henc, hreads, -, -, -, htext⟩ := encodePDU_ucs2_pieces
    (show validE164 (lit "+4915112345678") by decide)
    (valid_encodeRunes (List.replicate 71 '😀')) (by decide +kernel)
  exact ⟨pdus, ms, henc, hreads, htext⟩

end SmsGate.At
