import SmsGate.Go.Bits
import SmsGate.Go.Hex
import SmsGate.Go.Outcome
import SmsGate.Go.Time
import SmsGate.Go.Utf16

/-!
# SMS PDU encoding and decoding (`internal/at/pdu.go`)

The septet packers, the GSM 7-bit and UCS2 text codecs, semi-octet addresses, time stamps, and the
two entry points `decodePDU` (an SMS-DELIVER as `AT+CMGR` returns it) and `encodePDU` (one
SMS-SUBMIT per part).  Octets and Go strings are lists of bytes.

The decoder reads lengths that the sender of the message controls, so its functions run in
`Outcome`: every index and slice expression of the source is checked, and a panic is a result of
its own.  `decodePDU` takes SHA-256 and Unicode's case table from a `Host`.
-/

namespace SmsGate.At

open Go Go.Utf8 Go.Strings Go.Outcome

variable {ε : Type}

/-! ### GSM 7-bit basic character set -/

/-- `gsm7Charset`: the rune of each code point 0-127. -/
def gsm7Charset : List Char :=
  ['@', '£', '$', '¥', 'è', 'é', 'ù', 'ì', 'ò', 'Ç', '\n', 'Ø', 'ø', '\r', 'Å', 'å',
   'Δ', '_', 'Φ', 'Γ', 'Λ', 'Ω', 'Π', 'Ψ', 'Σ', 'Θ', 'Ξ', '\x1b', 'Æ', 'æ', 'ß', 'É',
   ' ', '!', '\x22', '#', '¤', '%', '&', '\x27', '(', ')', '*', '+', ',', '-', '.', '/',
   '0', '1', '2', '3', '4', '5', '6', '7', '8', '9', ':', ';', '<', '=', '>', '?',
   '¡', 'A', 'B', 'C', 'D', 'E', 'F', 'G', 'H', 'I', 'J', 'K', 'L', 'M', 'N', 'O',
   'P', 'Q', 'R', 'S', 'T', 'U', 'V', 'W', 'X', 'Y', 'Z', 'Ä', 'Ö', 'Ñ', 'Ü', '§',
   '¿', 'a', 'b', 'c', 'd', 'e', 'f', 'g', 'h', 'i', 'j', 'k', 'l', 'm', 'n', 'o',
   'p', 'q', 'r', 's', 't', 'u', 'v', 'w', 'x', 'y', 'z', 'ä', 'ö', 'ñ', 'ü', 'à']

/-- `gsm7Extension`: the runes after the escape code 0x1B. -/
def gsm7Extension : List (UInt8 × Char) :=
  [(0x0A, '\x0c'), (0x14, '^'), (0x28, '\x7b'), (0x29, '\x7d'), (0x2F, '\x5c'), (0x3C, '['),
   (0x3D, '~'), (0x3E, ']'), (0x40, '|'), (0x65, '€')]

/-- `runeToGSM7`, as `init` fills it: a later code point overwrites an earlier one. -/
def runeToGSM7 (r : Char) : Option UInt8 :=
  gsm7Charset.zipIdx.foldl
    (fun found p => if p.1 ≠ '\x00' ∧ p.1 = r then some (UInt8.ofNat p.2) else found) none

/-- The extension code of a rune.  The source ranges over the map in no fixed order and stops at
the first match; the runes of the table are distinct. -/
def extensionCode (r : Char) : Option UInt8 :=
  (gsm7Extension.find? fun e => e.2 = r).map Prod.fst

/-- `IsGSM7`. -/
def isGSM7 (s : List UInt8) : Bool :=
  (runes s).all fun r => (runeToGSM7 r).isSome || (extensionCode r).isSome

/-! ### Septets -/

/-- The body of the loop of `unpackGSM7`: septet `i` of `data`. -/
def unpackSeptet (data : List UInt8) (i : ℕ) : Outcome ε UInt8 := do
  let bytePos := i * 7 / 8
  let bitPos := i * 7 % 8
  let b0 ← index data bytePos
  let b := (b0 >>> UInt8.ofNat bitPos) &&& 0x7F
  if 1 < bitPos ∧ bytePos + 1 < data.length then
    let b1 ← index data (bytePos + 1)
    return b ||| ((b1 <<< UInt8.ofNat (8 - bitPos)) &&& 0x7F)
  else
    return b

/-- The loop of `unpackGSM7` from `i` on, with `n` iterations to go. -/
def unpackLoop (data : List UInt8) : (n i : ℕ) → (out : List UInt8) → Outcome ε (List UInt8)
  | 0, _, out => .ok out
  | n + 1, i, out =>
    if data.length ≤ i * 7 / 8 then .ok out
    else do
      let b ← unpackSeptet data i
      let out ← store out i b
      unpackLoop data n (i + 1) out

/-- `unpackGSM7`: the count is clamped to the septets that `data` can hold. -/
def unpackGSM7 (data : List UInt8) (nChars : ℕ) : Outcome ε (List UInt8) :=
  let maxChars := data.length * 8 / 7
  let nChars := if maxChars < nChars then maxChars else nChars
  unpackLoop data nChars 0 (List.replicate nChars 0)

/-- The body of the loop of `packGSM7`. -/
def packStep (packed : List UInt8) (i : ℕ) (c : UInt8) : List UInt8 :=
  let bytePos := i * 7 / 8
  let bitPos := i * 7 % 8
  let packed := packed.modify bytePos (· ||| c <<< UInt8.ofNat bitPos)
  if 1 < bitPos ∧ bytePos + 1 < packed.length then
    packed.modify (bytePos + 1) (· ||| c >>> UInt8.ofNat (8 - bitPos))
  else packed

/-- `packGSM7`. -/
def packGSM7 (chars : List UInt8) : List UInt8 :=
  let n := chars.length
  chars.zipIdx.foldl (fun packed p => packStep packed p.2 p.1) (List.replicate ((n * 7 + 7) / 8) 0)

/-- The bit array of `repackWithFill`: the fill bits, then the seven bits of each septet. -/
def fillBitArray (chars : List UInt8) (fillBits : ℕ) : List UInt8 :=
  List.replicate fillBits (0 : UInt8) ++
    chars.flatMap fun c : UInt8 => (List.range 7).map fun b => (c >>> UInt8.ofNat b) &&& 1

/-- `repackWithFill`: pack after a leading fill of `fillBits` bits. -/
def repackWithFill (chars : List UInt8) (fillBits : ℕ) : List UInt8 :=
  let bits := fillBitArray chars fillBits
  bits.zipIdx.foldl
    (fun out p =>
      if p.1 ≠ 0 then out.modify (p.2 / 8) (· ||| (1 : UInt8) <<< UInt8.ofNat (p.2 % 8)) else out)
    (List.replicate ((bits.length + 7) / 8) (0 : UInt8))

/-! ### Text -/

/-- The loop of `decodeGSM7Text` at position `i`, with the text so far in `sb`. -/
def decodeGSM7TextLoop (codes : List UInt8) :
    (fuel i : ℕ) → (sb : List UInt8) → Outcome ε (List UInt8)
  | 0, _, sb => .ok sb
  | fuel + 1, i, sb =>
    if i < codes.length then do
      let c ← index codes i
      if c = 0x1B then
        -- escape: the next byte is an extension table code
        if i + 1 < codes.length then
          let x ← index codes (i + 1)
          match gsm7Extension.lookup x with
          | some r => decodeGSM7TextLoop codes fuel (i + 2) (sb ++ encodeRune r)
          | none => decodeGSM7TextLoop codes fuel (i + 2) (sb ++ [0x20])
        else decodeGSM7TextLoop codes fuel (i + 1) sb
      else if c.toNat < gsm7Charset.length then
        let r ← index gsm7Charset c.toNat
        decodeGSM7TextLoop codes fuel (i + 1) (sb ++ encodeRune r)
      else decodeGSM7TextLoop codes fuel (i + 1) sb
    else .ok sb

/-- `decodeGSM7Text`.  Every iteration moves on, so `len(codes)` of them are enough. -/
def decodeGSM7Text (codes : List UInt8) : Outcome ε (List UInt8) :=
  decodeGSM7TextLoop codes codes.length 0 []

/-- The septets of one rune in `encodeGSM7Text`; a rune of neither table has none. -/
def encodeGSM7Rune (r : Char) : List UInt8 :=
  match runeToGSM7 r with
  | some b => [b]
  | none =>
    match extensionCode r with
    | some code => [0x1B, code]
    | none => []

/-- `encodeGSM7Text`. -/
def encodeGSM7Text (s : List UInt8) : List UInt8 := (runes s).flatMap encodeGSM7Rune

/-- `binary.BigEndian.Uint16(data[off:])`. -/
def uint16At (data : List UInt8) (off : ℕ) : Outcome ε UInt16 := do
  let rest ← slice data off data.length
  let hi ← index rest 0
  let lo ← index rest 1
  return UInt16.ofNat (hi.toNat * 256 + lo.toNat)

/-- `decodeUCS2`. -/
def decodeUCS2 (data : List UInt8) : Outcome ε (List UInt8) := do
  let data ← if data.length % 2 ≠ 0 then slice data 0 (data.length - 1) else .ok data
  let u16 ← (List.range (data.length / 2)).mapM fun i => uint16At data (i * 2)
  return encodeRunes (Utf16.decode u16)

/-- `encodeUCS2`. -/
def encodeUCS2 (s : List UInt8) : List UInt8 :=
  (Utf16.encode (runes s)).flatMap fun u => [UInt8.ofNat (u.toNat / 256), UInt8.ofNat u.toNat]

/-! ### Addresses and time stamps -/

/-- `swapNibbles`. -/
def swapNibbles (b : UInt8) : UInt8 :=
  ((b >>> 4) &&& (0x0F : UInt8)) ||| ((b &&& 0x0F) <<< (4 : UInt8))

/-- The digit loop of `decodeBCDAddress` from digit `i` on, with `n` digits to go. -/
def decodeBCDLoop (data : List UInt8) : (n i : ℕ) → (sb : List UInt8) → Outcome ε (List UInt8)
  | 0, _, sb => .ok sb
  | n + 1, i, sb =>
    if data.length ≤ i / 2 then .ok sb
    else do
      let b ← index data (i / 2)
      let nibble := if i % 2 = 0 then b &&& 0x0F else (b >>> 4) &&& 0x0F
      -- 0xF is padding
      if nibble = 0x0F then .ok sb else decodeBCDLoop data n (i + 1) (sb ++ [0x30 + nibble])

/-- `decodeBCDAddress`: type 0xD0 is alphanumeric, 0x91 international. -/
def decodeBCDAddress (data : List UInt8) (numDigits : ℕ) (addrType : UInt8) :
    Outcome ε (List UInt8) := do
  if addrType = 0xD0 then
    let codes ← unpackGSM7 data numDigits
    decodeGSM7Text codes
  else
    decodeBCDLoop data numDigits 0 (if addrType = 0x91 then [0x2B] else [])

/-- `encodeBCDAddress`: the number of digits, the type octet and the semi-octets. -/
def encodeBCDAddress (msisdn : List UInt8) : ℕ × UInt8 × List UInt8 :=
  let plus := hasPrefix msisdn (lit "+")
  let addrType : UInt8 := if plus then 0x91 else 0x81
  let digits := if plus then msisdn.drop 1 else msisdn
  let numDigits := digits.length
  -- pad to even length with 0xF
  let digits := if numDigits % 2 ≠ 0 then digits ++ lit "F" else digits
  let data := (List.range (digits.length / 2)).map fun i =>
    let lo := digits.getD (i * 2) 0 - 0x30
    let hi := digits.getD (i * 2 + 1) 0
    let hi := if hi = 0x46 then 0x0F else hi - 0x30
    lo ||| (hi <<< 4)
  (numDigits, addrType, data)

/-- `decodeSMSC`: the service centre and the number of octets consumed. -/
def decodeSMSC (raw : List UInt8) : Outcome ε (List UInt8 × ℕ) := do
  if raw.length = 0 then return ([], 0)
  let smscLen := (← index raw 0).toNat
  if smscLen = 0 then return ([], 1)
  if raw.length < 1 + smscLen then return ([], 1 + smscLen)
  let addrType ← index raw 1
  let data ← slice raw 2 (1 + smscLen)
  let smsc ← decodeBCDAddress data ((smscLen - 1) * 2) addrType
  return (smsc, 1 + smscLen)

/-- `decodeSCTS`. -/
def decodeSCTS (data : List UInt8) : Outcome ε Time := do
  if data.length < 7 then return Time.zero
  let yy := (swapNibbles (← index data 0)).toNat
  let mm := (swapNibbles (← index data 1)).toNat
  let dd := (swapNibbles (← index data 2)).toNat
  let hh := (swapNibbles (← index data 3)).toNat
  let min := (swapNibbles (← index data 4)).toNat
  let ss := (swapNibbles (← index data 5)).toNat
  let tzRaw := swapNibbles (← index data 6)
  let tzQuarters : ℤ := (tzRaw &&& 0x7F).toNat
  let tzSign : ℤ := if tzRaw &&& 0x80 ≠ 0 then -1 else 1
  let tzOffset := tzSign * tzQuarters * 15 * 60
  return Time.date (2000 + yy) mm dd hh min ss tzOffset

/-- The alphabets `dcsEncoding` tells apart. -/
inductive Encoding where
  | gsm7
  | eightBit
  | ucs2
  deriving DecidableEq

/-- `dcsEncoding`.  The reserved alphabet of the general groups falls through to GSM7. -/
def dcsEncoding (dcs : UInt8) : Encoding :=
  let group := (dcs >>> 4) &&& 0x0F
  if group = 0x00 ∨ group = 0x0F then
    let enc := (dcs >>> 2) &&& 0x03
    if enc = 0x00 then .gsm7 else if enc = 0x01 then .eightBit else if enc = 0x02 then .ucs2
    else .gsm7
  else if 0x04 ≤ group ∧ group ≤ 0x07 then .gsm7
  else if 0x08 ≤ group ∧ group ≤ 0x0B then .ucs2
  else if group = 0x0C ∨ group = 0x0D then .gsm7
  else if group = 0x0E then if dcs &&& 0x04 ≠ 0 then .ucs2 else .gsm7
  else .gsm7

/-! ### `DecodePDU` -/

/-- What the model takes from outside: SHA-256 and Unicode's case table. -/
structure Host where
  /-- `sha256.Sum256`. -/
  sum256 : List UInt8 → List UInt8
  /-- The table behind `strings.ToUpper`. -/
  caseTable : CaseTable

/-- `DecodedSMS`. -/
structure DecodedSMS where
  smsc : List UInt8
  sender : List UInt8
  body : List UInt8
  timestamp : Time
  pduHash : List UInt8
  deriving DecidableEq

/-- The errors of `DecodePDU`. -/
inductive DecodeErr where
  | invalidHex (e : Hex.Err)
  | truncatedSMSC
  | notDeliver (mti : UInt8)
  | truncatedOA
  | truncatedOADigits
  | truncatedPID
  | truncatedDCS
  | truncatedSCTS
  | truncatedUDL
  | emptyUD
  | invalidUDH (udhLen udLen : ℕ)
  deriving DecidableEq

/-- The text of an error of `DecodePDU`; the wrapped error of a bad hex string is not spelled
out. -/
def DecodeErr.message : DecodeErr → String
  | invalidHex _ => "invalid PDU hex"
  | truncatedSMSC => "PDU truncated after SMSC"
  | notDeliver mti => s!"not SMS-DELIVER (MTI={mti})"
  | truncatedOA => "PDU truncated at OA"
  | truncatedOADigits => "PDU truncated at OA digits"
  | truncatedPID => "PDU truncated at PID"
  | truncatedDCS => "PDU truncated at DCS"
  | truncatedSCTS => "PDU truncated at SCTS"
  | truncatedUDL => "PDU truncated at UDL"
  | emptyUD => "PDU truncated: UDHI set but UD is empty"
  | invalidUDH udhLen udLen => s!"invalid UDH: length {udhLen} exceeds UD length {udLen}"

/-- The user data header of `DecodePDU`: what is left of the user data and of its length once the
header is cut off.  The source lets the length go negative and sets it to zero, which is what
subtraction of natural numbers does. -/
def cutUDH (pduType : UInt8) (enc : Encoding) (ud : List UInt8) (udl : ℕ) :
    Outcome DecodeErr (List UInt8 × ℕ) := do
  let udhi := (pduType >>> 6) &&& 0x01
  if udhi = 1 then
    failIf (ud.length = 0) .emptyUD
    let udhLen := (← index ud 0).toNat + 1
    failIf (ud.length < udhLen) (.invalidUDH udhLen ud.length)
    let rest ← slice ud udhLen ud.length
    if enc = .gsm7 then
      let udhSeptets := (udhLen * 8 + 6) / 7
      return (rest, if udl ≤ udhSeptets then 0 else udl - udhSeptets)
    else
      return (rest, udl - udhLen)
  else
    return (ud, udl)

/-- The body of `DecodePDU`, by alphabet. -/
def decodeBody (enc : Encoding) (ud : List UInt8) (udl : ℕ) : Outcome DecodeErr (List UInt8) :=
  match enc with
  | .gsm7 => do
    let codes ← unpackGSM7 ud udl
    decodeGSM7Text codes
  | .ucs2 => do
    let ucs2Bytes := udl * 2
    let ucs2Bytes := if ud.length < ucs2Bytes then ud.length else ucs2Bytes
    let data ← slice ud 0 ucs2Bytes
    decodeUCS2 data
  | .eightBit => slice ud 0 (if ud.length < udl then ud.length else udl)

/-- The part of `DecodePDU` after the hex string has been decoded, with the cursor in `pos`. -/
def decodeOctets (raw pduHash : List UInt8) : Outcome DecodeErr DecodedSMS := do
  let (smsc, pos) ← decodeSMSC raw
  failIf (raw.length ≤ pos) .truncatedSMSC
  let pduType ← index raw pos
  let pos := pos + 1
  let mti := pduType &&& 0x03
  failIf (mti ≠ 0x00) (.notDeliver mti)
  -- originating address
  failIf (raw.length < pos + 2) .truncatedOA
  let oaNumDigits := (← index raw pos).toNat
  let pos := pos + 1
  let oaType ← index raw pos
  let pos := pos + 1
  let oaBytes := (oaNumDigits + 1) / 2
  failIf (raw.length < pos + oaBytes) .truncatedOADigits
  let oa ← slice raw pos (pos + oaBytes)
  let sender ← decodeBCDAddress oa oaNumDigits oaType
  let pos := pos + oaBytes
  -- PID, skipped
  failIf (raw.length ≤ pos) .truncatedPID
  let pos := pos + 1
  failIf (raw.length ≤ pos) .truncatedDCS
  let dcs ← index raw pos
  let pos := pos + 1
  failIf (raw.length < pos + 7) .truncatedSCTS
  let scts ← slice raw pos (pos + 7)
  let ts ← decodeSCTS scts
  let pos := pos + 7
  failIf (raw.length ≤ pos) .truncatedUDL
  let udl := (← index raw pos).toNat
  let pos := pos + 1
  let enc := dcsEncoding dcs
  let ud ← slice raw pos raw.length
  let (ud, udl) ← cutUDH pduType enc ud udl
  let body ← decodeBody enc ud udl
  return { smsc := smsc, sender := sender, body := body, timestamp := ts, pduHash := pduHash }

/-- `DecodePDU`. -/
def decodePDU (h : Host) (hexStr : List UInt8) : Outcome DecodeErr DecodedSMS :=
  let hexStr := trimSpace (toUpper h.caseTable hexStr)
  match Hex.decodeString hexStr with
  | .error e => .err (.invalidHex e)
  | .ok raw => decodeOctets raw (lit "sha256:" ++ Hex.encodeToString (h.sum256 hexStr))

/-! ### `EncodePDU` -/

/-- `EncodedPDU`. -/
structure EncodedPDU where
  /-- The PDU in hex. -/
  hexStr : List UInt8
  /-- The length for `AT+CMGS`, without the SMSC octet. -/
  length : ℕ
  /-- The number of parts as the PDU carries it, 0 for a single part. -/
  numParts : ℕ
  deriving DecidableEq

def maxGSM7Chars : ℕ := 160
def maxUCS2Chars : ℕ := 70
def maxGSM7ConcatChars : ℕ := 153
def maxUCS2ConcatChars : ℕ := 67

/-- The octets of `buildGSM7PDU`. -/
def gsm7Octets (dest chars : List UInt8) (ref total partNum : UInt8) : List UInt8 :=
  let multiPart := 0 < total
  let pduType : UInt8 := if multiPart then 0x11 ||| 0x40 else 0x11
  let (numDigits, daType, daData) := encodeBCDAddress dest
  let udl := if multiPart then chars.length + 7 else chars.length
  [0x00, pduType, 0x00, UInt8.ofNat numDigits, daType] ++ daData ++
    [0x00, 0x00, 0xAA, UInt8.ofNat udl] ++
    if multiPart then [0x05, 0x00, 0x03, ref, total, partNum] ++ repackWithFill chars 1
    else packGSM7 chars

/-- The octets of `buildUCS2PDU`. -/
def ucs2Octets (dest : List UInt8) (rs : List Char) (ref total partNum : UInt8) : List UInt8 :=
  let multiPart := 0 < total
  let body := encodeUCS2 (encodeRunes rs)
  let udh := if multiPart then [0x05, 0x00, 0x03, ref, total, partNum] else []
  let (numDigits, daType, daData) := encodeBCDAddress dest
  let pduType : UInt8 := if multiPart then 0x11 ||| 0x40 else 0x11
  let udl := body.length + udh.length
  [0x00, pduType, 0x00, UInt8.ofNat numDigits, daType] ++ daData ++
    [0x00, 0x08, 0xAA, UInt8.ofNat udl] ++ udh ++ body

/-- The end of both builders. -/
def finishPDU (pdu : List UInt8) (total : UInt8) : EncodedPDU :=
  { hexStr := Hex.encodeToStringUpper pdu, length := pdu.length - 1, numParts := total.toNat }

/-- `buildGSM7PDU`: `ref`, `total` and `partNum` are zero for a single part. -/
def buildGSM7PDU (dest chars : List UInt8) (ref total partNum : UInt8) : EncodedPDU :=
  finishPDU (gsm7Octets dest chars ref total partNum) total

/-- `buildUCS2PDU`. -/
def buildUCS2PDU (dest : List UInt8) (rs : List Char) (ref total partNum : UInt8) : EncodedPDU :=
  finishPDU (ucs2Octets dest rs ref total partNum) total

/-- The split both encoders make: one part up to `single` units, otherwise parts of `concat`
units, numbered from 1, with the reference octet 0x42. -/
def splitParts {α : Type} (single concat : ℕ) (build : List α → UInt8 → UInt8 → UInt8 → EncodedPDU)
    (chars : List α) : List EncodedPDU :=
  let nChars := chars.length
  if nChars ≤ single then [build chars 0 0 0]
  else
    let nParts := (nChars + concat - 1) / concat
    (List.range nParts).map fun i =>
      let start := i * concat
      let stop := if nChars < start + concat then nChars else start + concat
      build ((chars.take stop).drop start) 0x42 (UInt8.ofNat nParts) (UInt8.ofNat (i + 1))

/-- `encodeGSM7PDUs`. -/
def encodeGSM7PDUs (dest body : List UInt8) : List EncodedPDU :=
  splitParts maxGSM7Chars maxGSM7ConcatChars (buildGSM7PDU dest) (encodeGSM7Text body)

/-- `encodeUCS2PDUs`. -/
def encodeUCS2PDUs (dest body : List UInt8) : List EncodedPDU :=
  splitParts maxUCS2Chars maxUCS2ConcatChars (buildUCS2PDU dest) (runes body)

/-- The error of `EncodePDU`, `unsupported encoding` with the name it was given. -/
inductive EncodeErr where
  | unsupported (encoding : List UInt8)
  deriving DecidableEq

/-- `EncodePDU`: an empty `encoding` is detected from the body. -/
def encodePDU (dest body encoding : List UInt8) : Except EncodeErr (List EncodedPDU) :=
  let encoding :=
    if encoding = [] then if isGSM7 body then lit "GSM7" else lit "UCS2" else encoding
  if encoding = lit "GSM7" then .ok (encodeGSM7PDUs dest body)
  else if encoding = lit "UCS2" then .ok (encodeUCS2PDUs dest body)
  else .error (.unsupported encoding)

end SmsGate.At
