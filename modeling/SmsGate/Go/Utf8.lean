import Mathlib.Data.List.DropRight
import Mathlib.Tactic.Common

/-!
# Go strings as byte lists

A Go string is any sequence of bytes; ranging over it, or converting it to `[]rune`, decodes UTF-8
and yields U+FFFD with width one for a byte that starts no valid sequence.  `decodeRune` is
`utf8.DecodeRuneInString`, `pieces` the runes of a string with the bytes each was decoded from,
`runes` is `[]rune(s)` and `encodeRunes` is `string(rs)`.

* `runes_encodeRunes`: decoding undoes encoding;
* `encodeRunes_injective`;
* `flatMap_snd_pieces`: the pieces of a string are a partition of it;
* `length_runes_le`: a string has at most as many runes as bytes.

Valid sequences are those of Lean's own `ByteArray.utf8DecodeChar?`, which like Go's refuses
overlong forms, surrogates and values above U+10FFFF.
-/

namespace Go

/-- The bytes of a string literal. -/
def lit (s : String) : List UInt8 := s.toList.flatMap String.utf8EncodeChar

namespace Utf8

/-- `utf8.RuneError`. -/
def runeError : Char := Char.ofNat 0xFFFD

/-- `utf8.DecodeRuneInString`: the first rune and its width in bytes. -/
def decodeRune : List UInt8 → Char × ℕ
  | [] => (runeError, 0)
  | b :: bs =>
    match (b :: bs).toByteArray.utf8DecodeChar? 0 with
    | some c => (c, c.utf8Size)
    | none => (runeError, 1)

/-- The runes of a string, each with the bytes it was decoded from, once `skip` bytes have been
passed over. -/
def piecesFrom : ℕ → List UInt8 → List (Char × List UInt8)
  | _, [] => []
  | 0, b :: bs =>
    let p := decodeRune (b :: bs)
    (p.1, (b :: bs).take p.2) :: piecesFrom (p.2 - 1) bs
  | skip + 1, _ :: bs => piecesFrom skip bs

/-- The runes of a string, each with the bytes it was decoded from. -/
def pieces (s : List UInt8) : List (Char × List UInt8) := piecesFrom 0 s

/-- `[]rune(s)`: the runes a `range` loop over `s` visits. -/
def runes (s : List UInt8) : List Char := (pieces s).map Prod.fst

/-- `utf8.AppendRune(nil, r)`. -/
def encodeRune (r : Char) : List UInt8 := String.utf8EncodeChar r

/-- `string(rs)`. -/
def encodeRunes (rs : List Char) : List UInt8 := rs.flatMap encodeRune

/-- `utf8.ValidString`. -/
def Valid (s : List UInt8) : Prop := encodeRunes (runes s) = s

instance (s : List UInt8) : Decidable (Valid s) := inferInstanceAs (Decidable (_ = _))

/-! ### Decoding one rune -/

@[simp] theorem length_encodeRune (r : Char) : (encodeRune r).length = r.utf8Size :=
  String.length_utf8EncodeChar r

@[simp] theorem encodeRunes_nil : encodeRunes [] = [] := rfl

@[simp] theorem encodeRunes_cons (r : Char) (rs : List Char) :
    encodeRunes (r :: rs) = encodeRune r ++ encodeRunes rs := rfl

theorem encodeRunes_append (rs rs' : List Char) :
    encodeRunes (rs ++ rs') = encodeRunes rs ++ encodeRunes rs' :=
  List.flatMap_append

theorem encodeRune_ne_nil (r : Char) : encodeRune r ≠ [] := by
  intro h
  have := congrArg List.length h
  rw [length_encodeRune, List.length_nil] at this
  exact absurd this (Nat.pos_iff_ne_zero.mp r.utf8Size_pos)

theorem decodeRune_encodeRune_append (r : Char) (s : List UInt8) :
    decodeRune (encodeRune r ++ s) = (r, r.utf8Size) := by
  have h : ((encodeRune r ++ s).toByteArray).utf8DecodeChar? 0 = some r := by
    rw [List.toByteArray_append]
    exact ByteArray.utf8DecodeChar?_utf8EncodeChar_append
  cases hs : encodeRune r ++ s with
  | nil => exact absurd (List.append_eq_nil_iff.mp hs).1 (encodeRune_ne_nil r)
  | cons b bs =>
    rw [hs] at h
    simp only [decodeRune, h]

/-- A byte below 0x80 is a rune of its own. -/
theorem encodeRune_ascii {r : Char} (h : r.toNat < 128) : encodeRune r = [UInt8.ofNat r.toNat] := by
  have hv : r.val.toNat ≤ 127 := Nat.le_of_lt_succ h
  simp only [encodeRune, String.utf8EncodeChar, hv, ite_true]
  rfl

/-- The bytes of a rune from U+0080 up are all from 0x80 up. -/
theorem le_of_mem_encodeRune {r : Char} (h : 128 ≤ r.toNat) {b : UInt8} (hb : b ∈ encodeRune r) :
    128 ≤ b.toNat := by
  have hv : ¬ r.val.toNat ≤ 127 := Nat.not_le.mpr h
  unfold encodeRune String.utf8EncodeChar at hb
  dsimp only at hb
  rw [if_neg hv] at hb
  split_ifs at hb
  all_goals
    simp only [List.mem_cons, List.not_mem_nil, or_false] at hb
    rcases hb with rfl | rfl | rfl | rfl <;> rw [UInt8.toNat_ofNat'] <;> omega

/-- The rune of a byte below 0x80. -/
def asciiRune (b : UInt8) : Char := Char.ofNat b.toNat

theorem toNat_charOfNat {n : ℕ} (h : n.isValidChar) : (Char.ofNat n).toNat = n := by
  rw [Char.ofNat, dif_pos h]
  rfl

theorem toNat_asciiRune (b : UInt8) : (asciiRune b).toNat = b.toNat := by
  have hb := b.toNat_lt
  exact toNat_charOfNat (Or.inl (by omega))

theorem encodeRune_asciiRune {b : UInt8} (h : b.toNat < 128) : encodeRune (asciiRune b) = [b] := by
  rw [encodeRune_ascii (by rw [toNat_asciiRune]; exact h), toNat_asciiRune, UInt8.ofNat_toNat]

/-- `decodeRune` either reads a valid sequence, or reports one byte from 0x80 up as an error. -/
theorem decodeRune_cons (b : UInt8) (bs : List UInt8) :
    (∃ r, decodeRune (b :: bs) = (r, r.utf8Size) ∧ (b :: bs).take r.utf8Size = encodeRune r) ∨
    (decodeRune (b :: bs) = (runeError, 1) ∧ 128 ≤ b.toNat) := by
  cases h : (b :: bs).toByteArray.utf8DecodeChar? 0 with
  | some c =>
    refine Or.inl ⟨c, by simp only [decodeRune, h], ?_⟩
    have he := congrArg (fun a => a.data.toList)
      (String.toByteArray_utf8EncodeChar_of_utf8DecodeChar?_eq_some h)
    simpa [encodeRune] using he.symm
  | none =>
    refine Or.inr ⟨by simp only [decodeRune, h], ?_⟩
    by_contra hlt
    have hd := decodeRune_encodeRune_append (asciiRune b) bs
    rw [encodeRune_asciiRune (by omega), List.singleton_append] at hd
    -- a byte below 0x80 decodes to itself, whatever follows
    have hs : ([b] ++ bs).toByteArray.utf8DecodeChar? 0 = some (asciiRune b) := by
      rw [List.toByteArray_append, ← encodeRune_asciiRune (by omega : b.toNat < 128)]
      exact ByteArray.utf8DecodeChar?_utf8EncodeChar_append
    rw [List.singleton_append, h] at hs
    cases hs

/-- The width of the first rune of a non-empty string. -/
theorem decodeRune_width (b : UInt8) (bs : List UInt8) :
    1 ≤ (decodeRune (b :: bs)).2 ∧ (decodeRune (b :: bs)).2 ≤ (b :: bs).length := by
  rcases decodeRune_cons b bs with ⟨r, hr, htake⟩ | ⟨hr, _⟩
  · have hlen := congrArg List.length htake
    rw [List.length_take, length_encodeRune] at hlen
    rw [hr]
    have := r.utf8Size_pos
    exact ⟨by omega, by dsimp only; omega⟩
  · rw [hr]
    exact ⟨le_rfl, by simp⟩

/-! ### The runes of a string -/

theorem piecesFrom_eq_pieces_drop (k : ℕ) (s : List UInt8) :
    piecesFrom k s = pieces (s.drop k) := by
  induction k generalizing s with
  | zero => rfl
  | succ k ih =>
    cases s with
    | nil => rfl
    | cons b bs => rw [piecesFrom, ih, List.drop_succ_cons]

@[simp] theorem pieces_nil : pieces [] = [] := rfl

theorem pieces_cons (b : UInt8) (bs : List UInt8) :
    pieces (b :: bs) = ((decodeRune (b :: bs)).1, (b :: bs).take (decodeRune (b :: bs)).2) ::
      pieces ((b :: bs).drop (decodeRune (b :: bs)).2) := by
  obtain ⟨hpos, _⟩ := decodeRune_width b bs
  obtain ⟨w, hw⟩ : ∃ w, (decodeRune (b :: bs)).2 = w + 1 := ⟨_, (Nat.sub_add_cancel hpos).symm⟩
  rw [pieces, piecesFrom, piecesFrom_eq_pieces_drop]
  rw [hw, Nat.add_sub_cancel, List.drop_succ_cons]

/-- Induction along the runes of a string: the case of a valid sequence and the case of a byte
that starts none. -/
theorem runes_induction {P : List UInt8 → Prop} (nil : P [])
    (valid : ∀ (r : Char) (s : List UInt8),
      pieces (encodeRune r ++ s) = (r, encodeRune r) :: pieces s → P s → P (encodeRune r ++ s))
    (invalid : ∀ (b : UInt8) (s : List UInt8), 128 ≤ b.toNat →
      pieces (b :: s) = (runeError, [b]) :: pieces s → P s → P (b :: s)) : ∀ s, P s := by
  intro s
  induction hn : s.length using Nat.strong_induction_on generalizing s with
  | _ n ih =>
  cases s with
  | nil => exact nil
  | cons b bs =>
    have hp := pieces_cons b bs
    rcases decodeRune_cons b bs with ⟨r, hr, htake⟩ | ⟨hr, hb⟩
    · have hsplit : encodeRune r ++ (b :: bs).drop r.utf8Size = b :: bs := by
        rw [← htake, List.take_append_drop]
      have hlt : ((b :: bs).drop r.utf8Size).length < n := by
        have := r.utf8Size_pos
        rw [← hn, List.length_drop, List.length_cons]
        omega
      rw [hr] at hp
      dsimp only at hp
      rw [htake] at hp
      have h := valid r ((b :: bs).drop r.utf8Size) (by rw [hsplit]; exact hp) (ih _ hlt _ rfl)
      rwa [hsplit] at h
    · rw [hr] at hp
      exact invalid b bs hb hp (ih bs.length (by rw [← hn]; simp) bs rfl)

theorem pieces_encodeRune_append (r : Char) (s : List UInt8) :
    pieces (encodeRune r ++ s) = (r, encodeRune r) :: pieces s := by
  cases hs : encodeRune r ++ s with
  | nil => exact absurd (List.append_eq_nil_iff.mp hs).1 (encodeRune_ne_nil r)
  | cons b bs =>
    rw [pieces_cons, ← hs, decodeRune_encodeRune_append]
    dsimp only
    rw [← length_encodeRune r, List.take_left, List.drop_left]

theorem pieces_encodeRunes_append (rs : List Char) (s : List UInt8) :
    pieces (encodeRunes rs ++ s) = rs.map (fun r => (r, encodeRune r)) ++ pieces s := by
  induction rs with
  | nil => rfl
  | cons r rs ih =>
    rw [encodeRunes_cons, List.append_assoc, pieces_encodeRune_append, ih]
    rfl

theorem pieces_encodeRunes (rs : List Char) :
    pieces (encodeRunes rs) = rs.map (fun r => (r, encodeRune r)) := by
  simpa using pieces_encodeRunes_append rs []

/-- **Decoding undoes encoding.** -/
theorem runes_encodeRunes (rs : List Char) : runes (encodeRunes rs) = rs := by
  rw [runes, pieces_encodeRunes, List.map_map]
  exact List.map_id rs

theorem encodeRunes_injective : Function.Injective encodeRunes :=
  Function.LeftInverse.injective runes_encodeRunes

theorem valid_encodeRunes (rs : List Char) : Valid (encodeRunes rs) := by
  rw [Valid, runes_encodeRunes]

/-- The pieces of a string partition its bytes. -/
theorem flatMap_snd_pieces (s : List UInt8) : (pieces s).flatMap Prod.snd = s := by
  induction s using runes_induction with
  | nil => rfl
  | valid r s hp ih => rw [hp, List.flatMap_cons, ih]
  | invalid b s _ hp ih => rw [hp, List.flatMap_cons, ih]; rfl

/-- A piece is the encoding of its rune, or one byte from 0x80 up. -/
theorem mem_pieces {s : List UInt8} {p : Char × List UInt8} (h : p ∈ pieces s) :
    p.2 = encodeRune p.1 ∨ (p.1 = runeError ∧ ∃ b : UInt8, p.2 = [b] ∧ 128 ≤ b.toNat) := by
  induction s using runes_induction with
  | nil => cases h
  | valid r s hp ih =>
    rw [hp, List.mem_cons] at h
    rcases h with rfl | h
    · exact Or.inl rfl
    · exact ih h
  | invalid b s hb hp ih =>
    rw [hp, List.mem_cons] at h
    rcases h with rfl | h
    · exact Or.inr ⟨rfl, b, rfl, hb⟩
    · exact ih h

theorem length_runes_le (s : List UInt8) : (runes s).length ≤ s.length := by
  induction s using runes_induction with
  | nil => exact le_rfl
  | valid r s hp ih =>
    have := r.utf8Size_pos
    rw [runes, hp, List.map_cons, List.length_cons, List.length_append, length_encodeRune]
    change (runes s).length + 1 ≤ _
    omega
  | invalid b s _ hp ih =>
    rw [runes, hp, List.map_cons, List.length_cons, List.length_cons]
    exact Nat.succ_le_succ ih

end Utf8

end Go
