import SmsGate.Go.Bits
import SmsGate.Go.Strings
import Mathlib.Data.Set.List

/-!
# `encoding/hex`

* `decodeString_encodeToStringUpper`: decoding undoes encoding;
* `exists_decodeString_iff`: what is accepted is an even number of hexadecimal digits;
* `decodeString_trimSpace_toUpper`: upper-casing a string changes neither whether its trimmed
  form is hexadecimal nor the octets it denotes.
-/

namespace Go.Hex

open Utf8 Strings

/-- The errors of `hex.DecodeString`. -/
inductive Err where
  /-- `hex.InvalidByteError`. -/
  | invalidByte (b : UInt8)
  /-- `hex.ErrLength`. -/
  | length
  deriving DecidableEq

/-- The value of a hexadecimal digit, `hex.fromHexChar`. -/
def fromHexChar (c : UInt8) : Option UInt8 :=
  if 0x30 ≤ c ∧ c ≤ 0x39 then some (c - 0x30)
  else if 0x61 ≤ c ∧ c ≤ 0x66 then some (c - 0x61 + 10)
  else if 0x41 ≤ c ∧ c ≤ 0x46 then some (c - 0x41 + 10)
  else none

/-- `hex.DecodeString`.  A bad digit is reported before an odd length. -/
def decodeString : List UInt8 → Except Err (List UInt8)
  | [] => .ok []
  | [a] =>
    match fromHexChar a with
    | none => .error (.invalidByte a)
    | some _ => .error .length
  | a :: b :: rest =>
    match fromHexChar a, fromHexChar b with
    | none, _ => .error (.invalidByte a)
    | some _, none => .error (.invalidByte b)
    | some x, some y =>
      match decodeString rest with
      | .ok t => .ok ((x <<< 4 ||| y) :: t)
      | .error e => .error e

/-- The lower-case digit of a nibble, `hextable`. -/
def hexDigit (n : UInt8) : UInt8 := if n < 10 then n + 0x30 else n - 10 + 0x61

/-- The upper-case digit of a nibble, what `strings.ToUpper` makes of `hexDigit`. -/
def hexDigitUpper (n : UInt8) : UInt8 := if n < 10 then n + 0x30 else n - 10 + 0x41

/-- `hex.EncodeToString`. -/
def encodeToString (bs : List UInt8) : List UInt8 :=
  bs.flatMap fun b : UInt8 => [hexDigit (b >>> 4), hexDigit (b &&& 0x0F)]

/-- `strings.ToUpper(hex.EncodeToString(bs))`. -/
def encodeToStringUpper (bs : List UInt8) : List UInt8 :=
  bs.flatMap fun b : UInt8 => [hexDigitUpper (b >>> 4), hexDigitUpper (b &&& 0x0F)]

/-! ### Round trip -/

theorem decodeString_cons_cons_digits {a b x y : UInt8} (ha : fromHexChar a = some x)
    (hb : fromHexChar b = some y) (rest : List UInt8) :
    decodeString (a :: b :: rest) = (decodeString rest).map ((x <<< 4 ||| y) :: ·) := by
  rw [decodeString, ha, hb]
  cases decodeString rest <;> rfl

theorem fromHexChar_hexDigits :
    ∀ b : UInt8, fromHexChar (hexDigitUpper (b >>> 4)) = some (b >>> 4) ∧
      fromHexChar (hexDigitUpper (b &&& 0x0F)) = some (b &&& 0x0F) ∧
      (b >>> 4) <<< 4 ||| (b &&& 0x0F) = b := by
  decide +kernel

theorem decodeString_encodeToStringUpper (bs : List UInt8) :
    decodeString (encodeToStringUpper bs) = .ok bs := by
  induction bs with
  | nil => rfl
  | cons b bs ih =>
    obtain ⟨hhi, hlo, hb⟩ := fromHexChar_hexDigits b
    change decodeString (_ :: _ :: encodeToStringUpper bs) = _
    rw [decodeString_cons_cons_digits hhi hlo, ih, hb]
    rfl

/-! ### Letter case -/

/-- The upper-case form of an ASCII byte. -/
def upperByte (x : UInt8) : UInt8 := UInt8.ofNat (asciiRune x).toUpper.toNat

theorem lt_of_isHexDigit : ∀ x : UInt8, (fromHexChar x).isSome → x.toNat < 128 := by
  decide +kernel

theorem fromHexChar_upperByte :
    ∀ x : UInt8, (fromHexChar x).isSome → fromHexChar (upperByte x) = fromHexChar x := by
  decide +kernel

theorem isHexDigit_of_upperByte : ∀ x : UInt8, x.toNat < 128 →
    (asciiRune x).toUpper.toNat < 128 ∧
      ((fromHexChar (upperByte x)).isSome → (fromHexChar x).isSome) := by
  decide +kernel

/-- An induction over what `decodeString` accepts, two digits at a time. -/
@[elab_as_elim]
theorem decodeString_induction {motive : List UInt8 → List UInt8 → Prop} (nil : motive [] [])
    (digits : ∀ a c x y s b, fromHexChar a = some x → fromHexChar c = some y → motive s b →
      motive (a :: c :: s) ((x <<< 4 ||| y) :: b))
    {s b : List UInt8} (h : decodeString s = .ok b) : motive s b := by
  induction s using decodeString.induct generalizing b with
  | case1 =>
    cases h
    exact nil
  | case2 a ha => simp [decodeString, ha] at h
  | case3 a x ha => simp [decodeString, ha] at h
  | case4 a c rest ha => simp [decodeString, ha] at h
  | case5 a c rest x hc ha => simp [decodeString, ha, hc] at h
  | case6 a c rest x y hc ha t ht ih =>
    have hb : b = (x <<< 4 ||| y) :: t := by simpa [decodeString, ha, hc, ht] using h.symm
    rw [hb]
    exact digits a c x y rest t ha hc (ih ht)
  | case7 a c rest x y hc ha e ht ih => simp [decodeString, ha, hc, ht] at h

/-- What `decodeString` accepts consists of hexadecimal digits. -/
theorem isHexDigit_of_decodeString {s b : List UInt8} (h : decodeString s = .ok b) :
    ∀ c ∈ s, (fromHexChar c).isSome := by
  refine decodeString_induction nofun (fun a c x y s b ha hc ih d hd => ?_) h
  rcases List.mem_cons.mp hd with rfl | hd
  · simp [ha]
  · rcases List.mem_cons.mp hd with rfl | hd
    · simp [hc]
    · exact ih d hd

theorem length_of_decodeString {s b : List UInt8} (h : decodeString s = .ok b) :
    s.length = 2 * b.length := by
  refine decodeString_induction rfl (fun a c x y s b _ _ ih => ?_) h
  rw [List.length_cons, List.length_cons, List.length_cons, ih]
  omega

/-- What `decodeString` accepts is an even number of hexadecimal digits. -/
theorem exists_decodeString_iff (s : List UInt8) :
    (∃ b, decodeString s = .ok b) ↔ s.length % 2 = 0 ∧ ∀ c ∈ s, (fromHexChar c).isSome := by
  constructor
  · rintro ⟨b, h⟩
    exact ⟨by rw [length_of_decodeString h]; omega, isHexDigit_of_decodeString h⟩
  · rintro ⟨heven, hdigits⟩
    induction s using decodeString.induct with
    | case1 => exact ⟨[], rfl⟩
    | case2 a ha => exact absurd heven Nat.one_ne_zero
    | case3 a x ha => exact absurd heven Nat.one_ne_zero
    | case4 a c rest ha => simp [ha] at hdigits
    | case5 a c rest x hc ha => simp [hc] at hdigits
    | case6 a c rest x y hc ha t ht ih =>
      exact ⟨_, by rw [decodeString_cons_cons_digits ha hc, ht]; rfl⟩
    | case7 a c rest x y hc ha e ht ih =>
      rw [List.length_cons, List.length_cons] at heven
      obtain ⟨b, hb⟩ := ih (by omega) fun d hd =>
        hdigits d (List.mem_cons_of_mem _ (List.mem_cons_of_mem _ hd))
      rw [ht] at hb
      cases hb

/-- The letter case of the digits does not matter. -/
theorem decodeString_map_upperByte {s : List UInt8} (h : ∀ c ∈ s, (fromHexChar c).isSome) :
    decodeString (s.map upperByte) = decodeString s := by
  have hcons : ∀ (a c : UInt8) (rest : List UInt8) (x y : UInt8), fromHexChar a = some x →
      fromHexChar c = some y → ((∀ d ∈ rest, (fromHexChar d).isSome) →
        decodeString (rest.map upperByte) = decodeString rest) →
      (∀ d ∈ a :: c :: rest, (fromHexChar d).isSome) →
      decodeString ((a :: c :: rest).map upperByte) = decodeString (a :: c :: rest) := by
    intro a c rest x y ha hc ih h
    have ha' : fromHexChar (upperByte a) = some x := by
      rw [fromHexChar_upperByte a (by simp [ha]), ha]
    have hc' : fromHexChar (upperByte c) = some y := by
      rw [fromHexChar_upperByte c (by simp [hc]), hc]
    rw [List.map_cons, List.map_cons, decodeString_cons_cons_digits ha' hc',
      decodeString_cons_cons_digits ha hc, ih fun d hd => h d (by simp [hd])]
  induction s using decodeString.induct with
  | case1 => rfl
  | case2 a ha => simp [ha] at h
  | case3 a x ha => simp [decodeString, fromHexChar_upperByte a (by simp [ha]), ha]
  | case4 a c rest ha => simp [ha] at h
  | case5 a c rest x hc ha => simp [hc] at h
  | case6 a c rest x y hc ha t ht ih => exact hcons a c rest x y ha hc ih h
  | case7 a c rest x y hc ha e ht ih => exact hcons a c rest x y ha hc ih h

/-- The piece of a string that is one hexadecimal digit. -/
def digitPiece (x : { x : UInt8 // (fromHexChar x).isSome }) : Char × List UInt8 :=
  (asciiRune x.1, [x.1])

/-- A rune whose encoding is all digits is one digit. -/
theorem exists_digit_of_encodeRune {r : Char} (h : ∀ c ∈ encodeRune r, (fromHexChar c).isSome) :
    ∃ x : UInt8, (fromHexChar x).isSome ∧ r = asciiRune x := by
  obtain ⟨c, hc⟩ := List.exists_mem_of_ne_nil _ (encodeRune_ne_nil r)
  have hr : r.toNat < 128 := by
    by_contra hge
    have := le_of_mem_encodeRune (by omega) hc
    have := lt_of_isHexDigit c (h c hc)
    omega
  rw [encodeRune_ascii hr] at h
  refine ⟨UInt8.ofNat r.toNat, h _ (List.mem_singleton_self _), ?_⟩
  rw [asciiRune, UInt8.toNat_ofNat_of_lt' (by rw [UInt8.size]; omega), Char.ofNat_toNat]

theorem mem_range_digitPiece_of_bytes {s : List UInt8} {p : Char × List UInt8}
    (hp : p ∈ pieces s) (h : ∀ c ∈ p.2, (fromHexChar c).isSome) : p ∈ Set.range digitPiece := by
  rcases mem_pieces hp with he | ⟨_, b, hb, hge⟩
  · rw [he] at h
    obtain ⟨x, hx, hr⟩ := exists_digit_of_encodeRune h
    refine ⟨⟨x, hx⟩, Prod.ext hr.symm ?_⟩
    rw [he, hr, encodeRune_asciiRune (lt_of_isHexDigit x hx)]
    rfl
  · have := lt_of_isHexDigit b (h b (by rw [hb]; exact List.mem_singleton_self b))
    omega

theorem mem_range_digitPiece_of_upper (t : CaseTable) {s : List UInt8} {p : Char × List UInt8}
    (hp : p ∈ pieces s) (h : ∀ c ∈ encodeRune (t.upper p.1), (fromHexChar c).isSome) :
    p ∈ Set.range digitPiece := by
  obtain ⟨y, hy, hu⟩ := exists_digit_of_encodeRune h
  have hylt := lt_of_isHexDigit y hy
  -- no rune outside ASCII has a digit for its upper case
  have hlt : p.1.toNat < 128 := by
    by_contra hge
    have hu' : (t.upper p.1).toNat = y.toNat := by rw [hu, toNat_asciiRune]
    rcases t.upper_nonASCII p.1 (by omega) (by omega) with hI | hS
    · have hyI : (0x49 : UInt8) = y := UInt8.toNat_inj.mp (by rw [← hu', hI]; rfl)
      exact absurd hy (by rw [← hyI]; decide)
    · have hyS : (0x53 : UInt8) = y := UInt8.toNat_inj.mp (by rw [← hu', hS]; rfl)
      exact absurd hy (by rw [← hyS]; decide)
  have hx : (UInt8.ofNat p.1.toNat).toNat = p.1.toNat :=
    UInt8.toNat_ofNat_of_lt' (by rw [UInt8.size]; omega)
  have hr : asciiRune (UInt8.ofNat p.1.toNat) = p.1 := by rw [asciiRune, hx, Char.ofNat_toNat]
  have hdigit : (fromHexChar (UInt8.ofNat p.1.toNat)).isSome := by
    refine (isHexDigit_of_upperByte _ (by omega)).2 ?_
    rw [upperByte, hr, ← t.upper_ascii p.1 hlt, hu, toNat_asciiRune, UInt8.ofNat_toNat]
    exact hy
  refine ⟨⟨_, hdigit⟩, Prod.ext hr ?_⟩
  rcases mem_pieces hp with he | ⟨he, _⟩
  · rw [he, encodeRune_ascii hlt]
    rfl
  · rw [he] at hlt
    exact absurd hlt (by decide)

/-- On digits, the bytes of the pieces and the encoding of their upper-cased runes decode alike. -/
theorem decodeString_digitPieces (t : CaseTable) {ps : List (Char × List UInt8)}
    (h : ∀ p ∈ ps, p ∈ Set.range digitPiece) :
    decodeString (encodeRunes (ps.map fun p => t.upper p.1)) =
      decodeString (ps.flatMap Prod.snd) := by
  obtain ⟨xs, rfl⟩ : ps ∈ Set.range (List.map digitPiece) := by
    rw [Set.range_list_map]
    exact h
  have hbytes : (xs.map digitPiece).flatMap Prod.snd = xs.map Subtype.val := by
    rw [List.flatMap_map]
    exact List.flatMap_pure_eq_map Subtype.val xs
  have hupper : encodeRunes ((xs.map digitPiece).map fun p => t.upper p.1) =
      (xs.map Subtype.val).map upperByte := by
    rw [List.map_map, List.map_map, encodeRunes, List.flatMap_map, ← List.flatMap_pure_eq_map]
    congr 1
    funext x
    have hx := lt_of_isHexDigit x.1 x.2
    change encodeRune (t.upper (asciiRune x.1)) = [upperByte x.1]
    rw [t.upper_ascii _ (by rw [toNat_asciiRune]; exact hx),
      encodeRune_ascii (isHexDigit_of_upperByte x.1 hx).1]
    rfl
  rw [hbytes, hupper, decodeString_map_upperByte]
  intro c hc
  obtain ⟨x, _, rfl⟩ := List.mem_map.mp hc
  exact x.2

/-- **Normalisation is harmless**: the trimmed upper-cased string denotes the octets that the
trimmed string denotes, and is rejected when it is. -/
theorem decodeString_trimSpace_toUpper (t : CaseTable) (s b : List UInt8) :
    decodeString (trimSpace (toUpper t s)) = .ok b ↔ decodeString (trimSpace s) = .ok b := by
  rw [trimSpace_toUpper, trimSpace_eq]
  constructor
  · intro h
    rw [decodeString_digitPieces t] at h
    · exact h
    · intro p hp
      refine mem_range_digitPiece_of_upper t (core_subset hp) fun c hc => ?_
      refine isHexDigit_of_decodeString h c ?_
      exact List.mem_flatMap.mpr ⟨_, List.mem_map_of_mem hp, hc⟩
  · intro h
    rw [decodeString_digitPieces t]
    · exact h
    · intro p hp
      refine mem_range_digitPiece_of_bytes (core_subset hp) fun c hc => ?_
      exact isHexDigit_of_decodeString h c (List.mem_flatMap.mpr ⟨p, hp, hc⟩)

/-! ### Digits with blanks around them -/

theorem encodeRunes_map_asciiRune {s : List UInt8} (h : ∀ c ∈ s, c.toNat < 128) :
    encodeRunes (s.map asciiRune) = s := by
  induction s with
  | nil => rfl
  | cons c s ih =>
    rw [List.map_cons, encodeRunes_cons, encodeRune_asciiRune (h c List.mem_cons_self),
      ih fun d hd => h d (List.mem_cons_of_mem c hd), List.singleton_append]

/-- Trimming takes the blanks around a run of digits, and nothing else. -/
theorem trimSpace_digits {left right : List Char} {s : List UInt8}
    (hleft : ∀ r ∈ left, isSpace r) (hs : ∀ c ∈ s, (fromHexChar c).isSome)
    (hright : ∀ r ∈ right, isSpace r) :
    trimSpace (encodeRunes left ++ s ++ encodeRunes right) = s := by
  have hdigit : ∀ x : UInt8, (fromHexChar x).isSome → isSpace (asciiRune x) = false := by
    decide +kernel
  have hruns : encodeRunes (s.map asciiRune) = s :=
    encodeRunes_map_asciiRune fun c hc => lt_of_isHexDigit c (hs c hc)
  conv_lhs => rw [← hruns, ← encodeRunes_append, ← encodeRunes_append]
  rw [trimSpace_surrounded hleft _ hright, hruns]
  intro r hr
  obtain ⟨c, hc, rfl⟩ := List.mem_map.mp hr
  exact hdigit c (hs c hc)

/-! ### Upper-case output -/

theorem toUpper_of_ascii (t : CaseTable) {s : List UInt8} (h : ∀ c ∈ s, c.toNat < 128) :
    toUpper t s = s.map upperByte := by
  have hup : s.map (t.upper ∘ asciiRune) = (s.map upperByte).map asciiRune := by
    rw [List.map_map]
    refine List.map_congr_left fun c hc => ?_
    have hlt := (isHexDigit_of_upperByte c (h c hc)).1
    have hbyte : asciiRune (upperByte c) = (asciiRune c).toUpper := by
      rw [upperByte, asciiRune, Bits.toNat_ofNat_of_lt (by omega), Char.ofNat_toNat]
    rw [Function.comp, Function.comp, t.upper_ascii _ (by rw [toNat_asciiRune]; exact h c hc),
      hbyte]
  conv_lhs => rw [← encodeRunes_map_asciiRune h]
  rw [toUpper, runes_encodeRunes, List.map_map, hup, encodeRunes_map_asciiRune]
  intro c hc
  obtain ⟨d, hd, rfl⟩ := List.mem_map.mp hc
  have hlt := (isHexDigit_of_upperByte d (h d hd)).1
  rwa [upperByte, Bits.toNat_ofNat_of_lt (by omega)]

/-- `encodeToStringUpper` is `strings.ToUpper` of `hex.EncodeToString`. -/
theorem toUpper_encodeToString (t : CaseTable) (bs : List UInt8) :
    toUpper t (encodeToString bs) = encodeToStringUpper bs := by
  have hdigits : ∀ b : UInt8,
      (hexDigit (b >>> 4)).toNat < 128 ∧ (hexDigit (b &&& 0x0F)).toNat < 128 ∧
      upperByte (hexDigit (b >>> 4)) = hexDigitUpper (b >>> 4) ∧
      upperByte (hexDigit (b &&& 0x0F)) = hexDigitUpper (b &&& 0x0F) := by
    decide +kernel
  rw [toUpper_of_ascii]
  · rw [encodeToString, encodeToStringUpper, List.map_flatMap]
    congr 1
    funext b
    rw [List.map_cons, List.map_cons, List.map_nil, (hdigits b).2.2.1, (hdigits b).2.2.2]
  · intro c hc
    obtain ⟨b, _, hc⟩ := List.mem_flatMap.mp hc
    rcases List.mem_cons.mp hc with rfl | hc
    · exact (hdigits b).1
    · rw [List.mem_singleton.mp hc]
      exact (hdigits b).2.1

/-! ### One text for each octet string -/

theorem upperByte_of_fromHexChar {a x : UInt8} (h : fromHexChar a = some x) :
    x < 16 ∧ upperByte a = hexDigitUpper x := by
  have hdigit : ∀ a : UInt8,
      (fromHexChar a).all fun x => x < 16 ∧ upperByte a = hexDigitUpper x := by
    decide +kernel
  have ha := hdigit a
  rw [h, Option.all_some] at ha
  exact of_decide_eq_true ha

/-- The nibbles of an octet that is put together from two. -/
theorem nibbles_shiftLeft_lor : ∀ x : UInt8, x < 16 → ∀ y : UInt8, y < 16 →
    (x <<< 4 ||| y) >>> 4 = x ∧ (x <<< 4 ||| y) &&& 0x0F = y := by
  decide +kernel

/-- In upper case, the digits of an octet string are those that `encodeToStringUpper` writes. -/
theorem map_upperByte_of_decodeString {s b : List UInt8} (h : decodeString s = .ok b) :
    s.map upperByte = encodeToStringUpper b := by
  refine decodeString_induction rfl (fun a c x y s b ha hc ih => ?_) h
  obtain ⟨hx, ha'⟩ := upperByte_of_fromHexChar ha
  obtain ⟨hy, hc'⟩ := upperByte_of_fromHexChar hc
  obtain ⟨hhi, hlo⟩ := nibbles_shiftLeft_lor x hx y hy
  rw [List.map_cons, List.map_cons, ih, ha', hc', encodeToStringUpper, encodeToStringUpper,
    List.flatMap_cons, hhi, hlo]
  rfl

theorem encodeToStringUpper_injective : Function.Injective encodeToStringUpper := by
  intro b b' h
  have hb := decodeString_encodeToStringUpper b
  rw [h, decodeString_encodeToStringUpper] at hb
  exact (Except.ok.inj hb).symm

theorem encodeToString_injective : Function.Injective encodeToString := by
  intro b b' h
  have hupper := congrArg (toUpper .ascii) h
  rw [toUpper_encodeToString, toUpper_encodeToString] at hupper
  exact encodeToStringUpper_injective hupper

/-- The upper-case form of the digits of an octet string, without the blanks around it. -/
theorem trimSpace_toUpper_of_decodeString (t : CaseTable) {s b : List UInt8}
    (h : decodeString s = .ok b) : trimSpace (toUpper t s) = encodeToStringUpper b := by
  have hblank : ∀ r ∈ ([] : List Char), isSpace r := nofun
  have htrim := trimSpace_digits hblank
    (isHexDigit_of_decodeString (decodeString_encodeToStringUpper b)) hblank
  rw [encodeRunes_nil, List.nil_append, List.append_nil] at htrim
  rw [toUpper_of_ascii t fun c hc => lt_of_isHexDigit c (isHexDigit_of_decodeString h c hc),
    map_upperByte_of_decodeString h, htrim]

end Go.Hex
