import SmsGate.At.Equiv.UserData
import SmsGate.At.Commands

/-!
# The deduplication key

`PDUHash` is the hash of a text, not of octets.  The text has passed through `ReadSMS`, which trims
and joins the lines behind the `+CMGR:` header, and through `DecodePDU`, which takes it to upper
case and trims it again.

* `ReadReply`: an answer to `AT+CMGR`, with the digits of a PDU split over lines in any way;
* `readSMS_reply`: `ReadSMS` returns the digits;
* `decodePDU_pduHash`: what is hashed is the one upper-case text of the octets;
* `pduHash_eq_iff`: without collisions, the key is the same for two replies if and only if the
  octets are.
-/

namespace SmsGate.At

open Go Go.Utf8 Go.Strings Go.Outcome

/-- A line with a part of a PDU: hex digits, maybe none, and blanks around them. -/
structure PduLine where
  left : List Char
  digits : List UInt8
  right : List Char
  left_blank : ∀ r ∈ left, isSpace r
  digits_hex : ∀ c ∈ digits, (Hex.fromHexChar c).isSome
  right_blank : ∀ r ∈ right, isSpace r

/-- The line as the modem writes it. -/
def PduLine.line (l : PduLine) : Line := encodeRunes l.left ++ l.digits ++ encodeRunes l.right

theorem PduLine.trimSpace_line (l : PduLine) : trimSpace l.line = l.digits :=
  Hex.trimSpace_digits l.left_blank l.digits_hex l.right_blank

/-- The lines of an answer to `AT+CMGR`: the header, maybe behind other lines, and the PDU. -/
structure ReadReply where
  before : List Line
  header : Line
  parts : List PduLine
  before_other : ∀ l ∈ before, hasPrefix l (lit "+CMGR:") = false
  header_cmgr : hasPrefix header (lit "+CMGR:")

namespace ReadReply

def lines (r : ReadReply) : List Line := r.before ++ r.header :: r.parts.map PduLine.line

/-- The hex digits behind the header. -/
def digits (r : ReadReply) : List UInt8 := r.parts.flatMap PduLine.digits

/-- The octets of the PDU. -/
def Octets (r : ReadReply) (b : List UInt8) : Prop := Hex.decodeString r.digits = .ok b

theorem dropWhile_lines (r : ReadReply) :
    (r.lines.dropWhile fun l => !hasPrefix l (lit "+CMGR:")) =
      r.header :: r.parts.map PduLine.line := by
  rw [lines, List.dropWhile_append_of_pos fun l hl => by rw [r.before_other l hl]; rfl,
    List.dropWhile_cons_of_neg]
  rw [r.header_cmgr]
  decide

theorem flatMap_trimSpace (r : ReadReply) :
    (r.parts.map PduLine.line).flatMap trimSpace = r.digits := by
  rw [List.flatMap_map]
  simp only [PduLine.trimSpace_line]
  rfl

end ReadReply

/-- What `ReadSMS` returns for a reply is its digits. -/
theorem readSMS_reply {execute : Cmd → Id (Except Err (List Line))} {r : ReadReply} {index : ℤ}
    {s : List UInt8} (hexec : execute (.readSMS index) = .ok r.lines)
    (hread : readSMS execute index = .ok s) : s = r.digits := by
  have hne : r.lines ≠ [] := List.append_ne_nil_of_right_ne_nil _ (List.cons_ne_nil _ _)
  have hpdu : (execute (.readSMS index)).bind (pduOf index) = .ok s := hread
  rw [hexec] at hpdu
  change pduOf index r.lines = .ok s at hpdu
  rw [pduOf, if_neg hne, r.dropWhile_lines] at hpdu
  have hjoin := r.flatMap_trimSpace
  cases hparts : r.parts.map PduLine.line with
  | nil => simp only [hparts, reduceCtorEq] at hpdu
  | cons l ls =>
    simp only [hparts] at hpdu hjoin
    rw [hjoin] at hpdu
    split_ifs at hpdu with hempty
    exact (Except.ok.inj hpdu).symm

/-- A message that is accepted carries the key that was computed from its text. -/
theorem pduHash_of_decodeOctets {raw hash : List UInt8} {m : DecodedSMS}
    (h : decodeOctets raw hash = .ok m) : m.pduHash = hash := by
  by_cases hg : Grammar raw
  · obtain ⟨d, rfl⟩ := exists_deliver_of_grammar hg
    rw [decodeOctets_octets] at h
    cases h
    rfl
  · obtain ⟨e, he⟩ := decodeOctets_of_not_grammar hash hg
    rw [h] at he
    cases he

/-- What `DecodePDU` hashes is the upper-case text of the octets. -/
theorem decodePDU_pduHash {h : Host} {s b : List UInt8} {m : DecodedSMS}
    (hb : Hex.decodeString s = .ok b) (hm : decodePDU h s = .ok m) :
    m.pduHash = lit "sha256:" ++ Hex.encodeToString (h.sum256 (Hex.encodeToStringUpper b)) := by
  simp only [decodePDU, Hex.trimSpace_toUpper_of_decodeString h.caseTable hb,
    Hex.decodeString_encodeToStringUpper] at hm
  exact pduHash_of_decodeOctets hm

/-- **The key depends on the octets only.**  Take any two replies to `AT+CMGR`, each with its PDU
split over lines in any way, with any blanks around the parts and in any letter case.  If `ReadSMS`
and `DecodePDU` accept both and the hash has no collisions, then the two keys are equal if and only
if the PDUs have the same octets. -/
theorem pduHash_eq_iff (h : Host) (hinj : Function.Injective h.sum256)
    {execute execute' : Cmd → Id (Except Err (List Line))} {index index' : ℤ} {r r' : ReadReply}
    {b b' s s' : List UInt8} {m m' : DecodedSMS} (hb : r.Octets b) (hb' : r'.Octets b')
    (hexec : execute (.readSMS index) = .ok r.lines)
    (hexec' : execute' (.readSMS index') = .ok r'.lines)
    (hread : readSMS execute index = .ok s) (hread' : readSMS execute' index' = .ok s')
    (hm : decodePDU h s = .ok m) (hm' : decodePDU h s' = .ok m') :
    m.pduHash = m'.pduHash ↔ b = b' := by
  obtain rfl := readSMS_reply hexec hread
  obtain rfl := readSMS_reply hexec' hread'
  rw [decodePDU_pduHash hb hm, decodePDU_pduHash hb' hm', List.append_cancel_left_eq]
  constructor
  · intro hhash
    exact Hex.encodeToStringUpper_injective (hinj (Hex.encodeToString_injective hhash))
  · intro hoctets
    rw [hoctets]

/-- A PDU on one line. -/
def sampleReply : ReadReply where
  before := []
  header := lit "+CMGR: 0,,16"
  parts :=
    [⟨[], lit "0004029121000442101021436500020AFF", [], nofun,
      List.all_eq_true.mp (by decide), nofun⟩]
  before_other := nofun
  header_cmgr := by decide

/-- The same PDU in lower case on three lines, one of them blank, behind an echo. -/
def sampleReplySplit : ReadReply where
  before := [lit "AT+CMGR=1"]
  header := lit "+CMGR: 0,,16"
  parts :=
    [⟨[' '], lit "00040291210004421", ['\t'], List.forall_mem_singleton.mpr rfl,
        List.all_eq_true.mp (by decide), List.forall_mem_singleton.mpr rfl⟩,
      ⟨[' '], [], [], List.forall_mem_singleton.mpr rfl, nofun, nofun⟩,
      ⟨[], lit "01021436500020aff", ['\r'], nofun, List.all_eq_true.mp (by decide),
        List.forall_mem_singleton.mpr rfl⟩]
  before_other := by decide
  header_cmgr := by decide

theorem pduHash_eq_iff_split : ∃ m m',
    readSMS (m := Id) (fun _ => .ok sampleReply.lines) 1 = .ok sampleReply.digits ∧
    readSMS (m := Id) (fun _ => .ok sampleReplySplit.lines) 2 = .ok sampleReplySplit.digits ∧
    decodePDU Host.sample sampleReply.digits = .ok m ∧
    decodePDU Host.sample sampleReplySplit.digits = .ok m' ∧ m.pduHash = m'.pduHash := by
  have hread : readSMS (m := Id) (fun _ => .ok sampleReply.lines) 1 = .ok sampleReply.digits := by
    change pduOf 1 sampleReply.lines = _
    decide
  have hread' : readSMS (m := Id) (fun _ => .ok sampleReplySplit.lines) 2 =
      .ok sampleReplySplit.digits := by
    change pduOf 2 sampleReplySplit.lines = _
    rfl
  have hb : sampleReply.Octets (sampleMessage 0x04 2 [0x0A, 0xFF]).octets :=
    show _ = _ by decide
  have hb' : sampleReplySplit.Octets (sampleMessage 0x04 2 [0x0A, 0xFF]).octets :=
    show _ = _ by decide
  have hhex : HexOf sampleReply.digits (sampleMessage 0x04 2 [0x0A, 0xFF]).octets := by decide
  have hhex' : HexOf sampleReplySplit.digits (sampleMessage 0x04 2 [0x0A, 0xFF]).octets := by decide
  have hm := decodePDU_octets Host.sample hhex
  have hm' := decodePDU_octets Host.sample hhex'
  exact ⟨_, _, hread, hread', hm, hm',
    (pduHash_eq_iff Host.sample Function.injective_id hb hb' rfl rfl hread hread' hm hm').mpr rfl⟩

end SmsGate.At
