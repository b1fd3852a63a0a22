import SmsGate.Go.Utf8
import Mathlib.Algebra.GroupWithZero.Nat

/-!
# `unicode/utf16`

`encode` is `utf16.Encode` on runes that are Unicode scalar values, `decode` is `utf16.Decode`,
which yields U+FFFD for a surrogate without its partner.

* `length_encode`: a rune outside the basic multilingual plane takes two units;
* `decode_encode`: decoding undoes encoding.
-/

namespace Go.Utf16

open Utf8

/-- The units of one rune. -/
def encodeRune16 (r : Char) : List UInt16 :=
  if r.toNat < 0x10000 then [UInt16.ofNat r.toNat]
  else
    let v := r.toNat - 0x10000
    [UInt16.ofNat (0xD800 + v / 1024), UInt16.ofNat (0xDC00 + v % 1024)]

/-- `utf16.Encode`. -/
def encode (rs : List Char) : List UInt16 := rs.flatMap encodeRune16

/-- `utf16.Decode`. -/
def decode : List UInt16 → List Char
  | [] => []
  | [u] => if u < 0xD800 ∨ 0xE000 ≤ u then [Char.ofNat u.toNat] else [runeError]
  | u :: v :: us =>
    if u < 0xD800 ∨ 0xE000 ≤ u then Char.ofNat u.toNat :: decode (v :: us)
    else if u < 0xDC00 ∧ 0xDC00 ≤ v ∧ v < 0xE000 then
      Char.ofNat ((u.toNat - 0xD800) * 1024 + (v.toNat - 0xDC00) + 0x10000) :: decode us
    else runeError :: decode (v :: us)

/-- The number of units of one rune. -/
def units (r : Char) : ℕ := if r.toNat < 0x10000 then 1 else 2

theorem length_encodeRune16 (r : Char) : (encodeRune16 r).length = units r := by
  unfold encodeRune16 units
  split_ifs <;> rfl

theorem length_encode (rs : List Char) : (encode rs).length = (rs.map units).sum := by
  rw [encode, List.length_flatMap]
  simp only [length_encodeRune16]

/-! ### Decoding undoes encoding -/

/-- A unit outside the surrogates is a rune of its own, whatever follows. -/
theorem decode_cons_of_not_surrogate {u : UInt16} (hu : u < 0xD800 ∨ 0xE000 ≤ u)
    (us : List UInt16) : decode (u :: us) = Char.ofNat u.toNat :: decode us := by
  cases us with
  | nil => simp only [decode, if_pos hu]
  | cons v us => rw [decode, if_pos hu]

theorem decode_encodeRune16_append (r : Char) (us : List UInt16) :
    decode (encodeRune16 r ++ us) = r :: decode us := by
  have hvalid : r.toNat < 0xD800 ∨ 0xDFFF < r.toNat ∧ r.toNat < 0x110000 := r.valid
  unfold encodeRune16
  split_ifs with hbmp
  · have hunit : (UInt16.ofNat r.toNat).toNat = r.toNat := by
      rw [UInt16.toNat_ofNat']
      omega
    have hu : UInt16.ofNat r.toNat < 0xD800 ∨ 0xE000 ≤ UInt16.ofNat r.toNat := by
      rw [UInt16.lt_iff_toNat_lt, UInt16.le_iff_toNat_le, hunit]
      simp only [UInt16.reduceToNat]
      omega
    rw [List.singleton_append, decode_cons_of_not_surrogate hu, hunit, Char.ofNat_toNat]
  · -- the first unit holds the upper ten bits, the second the lower ten
    have hhi : (UInt16.ofNat (0xD800 + (r.toNat - 0x10000) / 1024)).toNat =
        0xD800 + (r.toNat - 0x10000) / 1024 := by
      rw [UInt16.toNat_ofNat']
      omega
    have hlo : (UInt16.ofNat (0xDC00 + (r.toNat - 0x10000) % 1024)).toNat =
        0xDC00 + (r.toNat - 0x10000) % 1024 := by
      rw [UInt16.toNat_ofNat']
      omega
    have hcode : (0xD800 + (r.toNat - 0x10000) / 1024 - 0xD800) * 1024 +
        (0xDC00 + (r.toNat - 0x10000) % 1024 - 0xDC00) + 0x10000 = r.toNat := by omega
    dsimp only
    rw [List.cons_append, List.singleton_append, decode, if_neg, if_pos, hhi, hlo, hcode,
      Char.ofNat_toNat]
    · simp only [UInt16.lt_iff_toNat_lt, UInt16.le_iff_toNat_le, hhi, hlo, UInt16.reduceToNat]
      omega
    · simp only [UInt16.lt_iff_toNat_lt, UInt16.le_iff_toNat_le, hhi, UInt16.reduceToNat]
      omega

/-- `utf16.Decode` undoes `utf16.Encode`. -/
theorem decode_encode (rs : List Char) : decode (encode rs) = rs := by
  induction rs with
  | nil => rfl
  | cons r rs ih => rw [encode, List.flatMap_cons, decode_encodeRune16_append, ← encode, ih]

/-! ### Decoding a text that goes on -/

theorem decode_ne_nil {us : List UInt16} (h : us ≠ []) : decode us ≠ [] := by
  rcases us with _ | ⟨u, _ | ⟨v, us⟩⟩
  · exact absurd rfl h
  · rw [decode]
    split_ifs <;> exact List.cons_ne_nil _ _
  · rw [decode]
    split_ifs <;> exact List.cons_ne_nil _ _

/-- The rune of a surrogate pair is not the one for an unpaired surrogate. -/
theorem ofNat_pair_ne_runeError {u v : UInt16} (hu : u < 0xDC00) (hv : v < 0xE000) :
    Char.ofNat ((u.toNat - 0xD800) * 1024 + (v.toNat - 0xDC00) + 0x10000) ≠ runeError := by
  simp only [UInt16.lt_iff_toNat_lt, UInt16.reduceToNat] at hu hv
  have hvalid : ((u.toNat - 0xD800) * 1024 + (v.toNat - 0xDC00) + 0x10000).isValidChar :=
    .inr ⟨by omega, by omega⟩
  intro heq
  have hcode := congrArg Char.toNat heq
  rw [toNat_charOfNat hvalid, show runeError.toNat = 0xFFFD from rfl] at hcode
  omega

/-- Units behind a text change it: they add runes, or the first of them completes a pair. -/
theorem decode_append_ne (us : List UInt16) {vs : List UInt16} (h : vs ≠ []) :
    decode (us ++ vs) ≠ decode us := by
  obtain ⟨w, ws, rfl⟩ := List.exists_cons_of_ne_nil h
  induction us using decode.induct with
  | case1 => exact decode_ne_nil h
  | case2 u hu =>
    rw [List.singleton_append, decode_cons_of_not_surrogate hu, decode_cons_of_not_surrogate hu]
    exact fun heq => decode_ne_nil h (List.cons.inj heq).2
  | case3 u hu =>
    -- a surrogate at the end: the next unit may be its partner
    rw [List.singleton_append, decode, if_neg hu, decode, if_neg hu]
    split_ifs with hpair
    · exact fun heq => ofNat_pair_ne_runeError hpair.1 hpair.2.2 (List.cons.inj heq).1
    · exact fun heq => decode_ne_nil h (List.cons.inj heq).2
  | case4 u v us hu ih =>
    rw [List.cons_append, decode_cons_of_not_surrogate hu, decode_cons_of_not_surrogate hu]
    exact fun heq => ih (List.cons.inj heq).2
  | case5 u v us hu hpair ih =>
    rw [List.cons_append, List.cons_append, decode, if_neg hu, if_pos hpair, decode, if_neg hu,
      if_pos hpair]
    exact fun heq => ih (List.cons.inj heq).2
  | case6 u v us hu hpair ih =>
    rw [List.cons_append, List.cons_append, decode, if_neg hu, if_neg hpair, decode, if_neg hu,
      if_neg hpair]
    exact fun heq => ih (List.cons.inj heq).2

end Go.Utf16
