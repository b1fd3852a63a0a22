import Mathlib.Algebra.Group.Nat.Defs
import Mathlib.Data.List.GetD
import Mathlib.Data.Nat.Init
import Mathlib.Tactic.Common

/-!
# Bytes and bit streams

A list of bytes, of which only the low `w` bits of each are used, is a stream of bits read least
significant bit first: bit `k` of the stream is bit `k % w` of entry `k / w` (`stream w xs k`).
`fields w s n` cuts the first `n` groups of `w` bits out of a stream.  Regrouping a stream in
another width is `fields w' (stream w xs)`; both directions of a packing are instances.

* `fields_stream`: cutting a stream in its own width gives the list back;
* `stream_fields`: the stream of the groups is the stream, up to where it was cut;
* `drop_fields`: leaving out groups is shifting the stream.
-/

namespace Go

/-- A statement about every byte can be checked. -/
instance decidableForallByte {P : UInt8 → Prop} [DecidablePred P] : Decidable (∀ b, P b) :=
  decidable_of_iff (∀ i : Fin 256, P (UInt8.ofFin i))
    ⟨fun h b => by simpa using h b.toFin, fun h i => h (UInt8.ofFin i)⟩

/-! ### Entries two by two -/

/-- `g` of the entries two by two; an entry without a partner is dropped. -/
def pairs {β : Type} (g : UInt8 → UInt8 → β) : List UInt8 → List β
  | a :: b :: rest => g a b :: pairs g rest
  | _ => []

/-- A loop over the positions `2 i` and `2 i + 1`. -/
theorem map_range_pairs {β : Type} (g : UInt8 → UInt8 → β) (xs : List UInt8) :
    (List.range (xs.length / 2)).map (fun i => g (xs.getD (i * 2) 0) (xs.getD (i * 2 + 1) 0)) =
      pairs g xs := by
  induction xs using pairs.induct with
  | case1 a b rest ih =>
    have hlen : (a :: b :: rest).length / 2 = rest.length / 2 + 1 := by
      rw [List.length_cons, List.length_cons]
      omega
    rw [hlen, List.range_succ_eq_map, List.map_cons, List.map_map, pairs, ← ih]
    refine congrArg _ (List.map_congr_left fun i _ => ?_)
    simp only [Function.comp, Nat.succ_mul, List.getD_cons_succ]
  | case2 xs hshort =>
    rcases xs with _ | ⟨a, _ | ⟨b, rest⟩⟩
    · rfl
    · rw [List.length_singleton]
      rfl
    · exact absurd rfl (hshort a b rest)

theorem pairs_take_even {β : Type} (g : UInt8 → UInt8 → β) (xs : List UInt8) :
    pairs g (xs.take (xs.length - xs.length % 2)) = pairs g xs := by
  induction xs using pairs.induct with
  | case1 a b rest ih =>
    rw [List.length_cons, List.length_cons,
      show rest.length + 1 + 1 - (rest.length + 1 + 1) % 2 =
        rest.length - rest.length % 2 + 1 + 1 by omega,
      List.take_succ_cons, List.take_succ_cons, pairs, pairs, ih]
  | case2 xs hshort =>
    rcases xs with _ | ⟨a, _ | ⟨b, rest⟩⟩
    · rfl
    · rfl
    · exact absurd rfl (hshort a b rest)

theorem length_pairs {β : Type} (g : UInt8 → UInt8 → β) (xs : List UInt8) :
    (pairs g xs).length = xs.length / 2 := by
  rw [← map_range_pairs, List.length_map, List.length_range]

/-- More entries at the end are more pairs at the end. -/
theorem pairs_append {β : Type} (g : UInt8 → UInt8 → β) (xs ys : List UInt8) :
    ∃ vs, pairs g (xs ++ ys) = pairs g xs ++ vs := by
  induction xs using pairs.induct with
  | case1 a b rest ih =>
    obtain ⟨vs, hvs⟩ := ih
    exact ⟨vs, by rw [List.cons_append, List.cons_append, pairs, hvs, pairs, List.cons_append]⟩
  | case2 xs hshort =>
    refine ⟨pairs g (xs ++ ys), ?_⟩
    rcases xs with _ | ⟨a, _ | ⟨b, rest⟩⟩
    · rfl
    · rfl
    · exact absurd rfl (hshort a b rest)

namespace Bits

/-- Bit `k` of the entries of `xs`, `w` bits each, least significant bit first. -/
def stream (w : ℕ) (xs : List UInt8) (k : ℕ) : Bool := (xs.getD (k / w) 0).toNat.testBit (k % w)

/-- The first `n` groups of `w` bits of a stream. -/
def fields (w : ℕ) (s : ℕ → Bool) (n : ℕ) : List UInt8 :=
  (List.range n).map fun i => UInt8.ofNat (Nat.ofBits fun j : Fin w => s (w * i + j))

@[simp] theorem length_fields (w : ℕ) (s : ℕ → Bool) (n : ℕ) : (fields w s n).length = n := by
  simp [fields]

theorem testBit_byte_of_le {b : UInt8} {j : ℕ} (h : 8 ≤ j) : b.toNat.testBit j = false :=
  Nat.testBit_lt_two_pow (Nat.lt_of_lt_of_le b.toNat_lt (Nat.pow_le_pow_right (by decide) h))

/-- Bytes that agree in every bit are equal. -/
theorem byte_ext {a b : UInt8} (h : ∀ j < 8, a.toNat.testBit j = b.toNat.testBit j) : a = b := by
  apply UInt8.toNat_inj.mp
  apply Nat.eq_of_testBit_eq
  intro j
  by_cases hj : j < 8
  · exact h j hj
  · rw [testBit_byte_of_le (by omega), testBit_byte_of_le (by omega)]

/-- What holds of every two nibbles put together holds of every byte. -/
theorem byte_cases {P : UInt8 → Prop} (h : ∀ hi lo : Fin 16, P (UInt8.ofNat (16 * hi + lo)))
    (b : UInt8) : P b := by
  have hb := b.toNat_lt
  have hP := h ⟨b.toNat / 16, by omega⟩ ⟨b.toNat % 16, by omega⟩
  dsimp only at hP
  rwa [Nat.div_add_mod, UInt8.ofNat_toNat] at hP

/-! ### The bits of a shifted, masked or combined byte -/

theorem toNat_ofNat_of_lt {p : ℕ} (h : p < 256) : (UInt8.ofNat p).toNat = p := by
  rw [UInt8.toNat_ofNat', Nat.mod_eq_of_lt h]

theorem testBit_shiftRight {p : ℕ} (hp : p < 8) (b : UInt8) (j : ℕ) :
    (b >>> UInt8.ofNat p).toNat.testBit j = b.toNat.testBit (p + j) := by
  rw [UInt8.toNat_shiftRight, toNat_ofNat_of_lt (by omega), Nat.mod_eq_of_lt hp,
    Nat.testBit_shiftRight]

theorem testBit_shiftLeft {p : ℕ} (hp : p < 8) (b : UInt8) (j : ℕ) :
    (b <<< UInt8.ofNat p).toNat.testBit j =
      (decide (j < 8) && (decide (p ≤ j) && b.toNat.testBit (j - p))) := by
  rw [UInt8.toNat_shiftLeft, toNat_ofNat_of_lt (by omega), Nat.mod_eq_of_lt hp,
    Nat.testBit_mod_two_pow, Nat.testBit_shiftLeft]

theorem testBit_and_0x7F (b : UInt8) (j : ℕ) :
    (b &&& 0x7F).toNat.testBit j = (b.toNat.testBit j && decide (j < 7)) := by
  rw [UInt8.toNat_and, Nat.testBit_and]
  exact congrArg _ (Nat.testBit_two_pow_sub_one 7 j)

theorem testBit_or (a b : UInt8) (j : ℕ) :
    (a ||| b).toNat.testBit j = (a.toNat.testBit j || b.toNat.testBit j) := by
  rw [UInt8.toNat_or, Nat.testBit_or]

/-! ### Streams of concatenations and updates -/

/-- Updating one byte changes the stream at its eight bits only. -/
theorem stream_modify (xs : List UInt8) (i : ℕ) (f : UInt8 → UInt8) (k : ℕ) :
    stream 8 (xs.modify i f) k =
      if k / 8 = i ∧ i < xs.length then (f (xs.getD i 0)).toNat.testBit (k % 8)
      else stream 8 xs k := by
  rw [stream, stream, List.getD_eq_getElem?_getD, List.getElem?_modify]
  by_cases hk : k / 8 = i
  · subst hk
    by_cases hlt : k / 8 < xs.length
    · simp [hlt, List.getD_eq_getElem?_getD]
    · simp [hlt]
  · rw [if_neg (by tauto), List.getD_eq_getElem?_getD]
    cases xs[k / 8]? <;> simp [Ne.symm hk]

theorem stream_replicate_zero (n k : ℕ) : stream 8 (List.replicate n 0) k = false := by
  rw [stream, List.getD_eq_getElem?_getD, List.getElem?_replicate]
  split_ifs <;> exact Nat.zero_testBit _

theorem stream_of_le {w : ℕ} (hw : 0 < w) {xs : List UInt8} {k : ℕ} (h : w * xs.length ≤ k) :
    stream w xs k = false := by
  have hle : xs.length ≤ k / w := (Nat.le_div_iff_mul_le hw).mpr (by rwa [Nat.mul_comm])
  rw [stream, List.getD_eq_getElem?_getD, List.getElem?_eq_none hle]
  exact Nat.zero_testBit _

theorem stream_append_left {w : ℕ} (hw : 0 < w) (xs ys : List UInt8) {k : ℕ}
    (h : k < w * xs.length) : stream w (xs ++ ys) k = stream w xs k := by
  have hlt : k / w < xs.length := (Nat.div_lt_iff_lt_mul hw).mpr (by rwa [Nat.mul_comm])
  rw [stream, stream, List.getD_append _ _ _ _ hlt]

theorem stream_append_right {w : ℕ} (hw : 0 < w) (xs ys : List UInt8) (k : ℕ) :
    stream w (xs ++ ys) (w * xs.length + k) = stream w ys k := by
  have hdiv : (w * xs.length + k) / w = xs.length + k / w := Nat.mul_add_div hw _ _
  rw [stream, stream, hdiv, Nat.mul_add_mod, List.getD_append_right _ _ _ _ (Nat.le_add_right _ _),
    Nat.add_sub_cancel_left]

theorem stream_cons {w : ℕ} (hw : 0 < w) (x : UInt8) (xs : List UInt8) (k : ℕ) :
    stream w (x :: xs) k = if k < w then x.toNat.testBit k else stream w xs (k - w) := by
  split_ifs with hk
  · rw [stream, Nat.div_eq_of_lt hk, Nat.mod_eq_of_lt hk, List.getD_cons_zero]
  · obtain ⟨m, rfl⟩ := Nat.exists_eq_add_of_le (Nat.not_lt.mp hk)
    have h := stream_append_right hw [x] xs m
    rw [List.length_singleton, Nat.mul_one] at h
    rw [Nat.add_sub_cancel_left, ← h, List.singleton_append]

/-! ### Cutting a stream into groups -/

theorem testBit_ofNat_ofBits {w : ℕ} (hw : w ≤ 8) (f : Fin w → Bool) (j : ℕ) :
    (UInt8.ofNat (Nat.ofBits f)).toNat.testBit j = if h : j < w then f ⟨j, h⟩ else false := by
  have hlt : Nat.ofBits f < 2 ^ 8 :=
    Nat.lt_of_lt_of_le (Nat.ofBits_lt_two_pow f) (Nat.pow_le_pow_right (by decide) hw)
  rw [UInt8.toNat_ofNat', Nat.mod_eq_of_lt hlt, Nat.testBit_ofBits]

theorem getD_fields {w n i : ℕ} (s : ℕ → Bool) (h : i < n) :
    (fields w s n).getD i 0 = UInt8.ofNat (Nat.ofBits fun j : Fin w => s (w * i + j)) := by
  simp [fields, List.getD_eq_getElem?_getD, h]

theorem stream_fields {w n k : ℕ} (hw : 0 < w) (hw8 : w ≤ 8) (s : ℕ → Bool) (h : k < w * n) :
    stream w (fields w s n) k = s k := by
  have hlt : k / w < n := Nat.div_lt_of_lt_mul h
  rw [stream, getD_fields s hlt, testBit_ofNat_ofBits hw8, dif_pos (Nat.mod_lt k hw)]
  rw [Nat.div_add_mod]

theorem fields_congr {w n : ℕ} {s s' : ℕ → Bool} (h : ∀ k < w * n, s k = s' k) :
    fields w s n = fields w s' n := by
  refine List.map_congr_left fun i hi => ?_
  rw [List.mem_range] at hi
  congr 2
  funext j
  refine h _ ?_
  calc w * i + j < w * i + w := Nat.add_lt_add_left j.isLt _
    _ = w * (i + 1) := (Nat.mul_succ w i).symm
    _ ≤ w * n := Nat.mul_le_mul_left w hi

/-- A list whose stream is known is that stream cut into groups. -/
theorem eq_fields {w n : ℕ} (hw : 0 < w) (hw8 : w ≤ 8) {xs : List UInt8} {s : ℕ → Bool}
    (hlen : xs.length = n) (hlt : ∀ x ∈ xs, x.toNat < 2 ^ w)
    (hs : ∀ k < w * n, stream w xs k = s k) : xs = fields w s n := by
  refine List.ext_getElem (by rw [hlen, length_fields]) fun i hi hi' => ?_
  rw [length_fields] at hi'
  apply byte_ext
  intro j _
  have hget : (fields w s n)[i] = (fields w s n).getD i 0 := by
    rw [List.getD_eq_getElem?_getD, List.getElem?_eq_getElem, Option.getD_some]
  rw [hget, getD_fields s hi', testBit_ofNat_ofBits hw8]
  by_cases hj : j < w
  · have hk : w * i + j < w * n := by
      calc w * i + j < w * i + w := Nat.add_lt_add_left hj _
        _ = w * (i + 1) := (Nat.mul_succ w i).symm
        _ ≤ w * n := Nat.mul_le_mul_left w hi'
    rw [dif_pos hj]
    dsimp only
    rw [← hs _ hk, stream, Nat.mul_add_div hw, Nat.mul_add_mod, Nat.div_eq_of_lt hj,
      Nat.mod_eq_of_lt hj, Nat.add_zero, List.getD_eq_getElem?_getD, List.getElem?_eq_getElem hi,
      Option.getD_some]
  · rw [dif_neg hj]
    exact Nat.testBit_lt_two_pow (Nat.lt_of_lt_of_le (hlt _ (List.getElem_mem hi))
      (Nat.pow_le_pow_right (by decide) (by omega)))

/-- Cutting a stream in its own width gives the list back. -/
theorem fields_stream {w : ℕ} (hw : 0 < w) (hw8 : w ≤ 8) {xs : List UInt8}
    (hlt : ∀ x ∈ xs, x.toNat < 2 ^ w) : fields w (stream w xs) xs.length = xs :=
  (eq_fields hw hw8 rfl hlt fun _ _ => rfl).symm

/-- Leaving out the first `m` groups shifts the stream. -/
theorem drop_fields (w : ℕ) (s : ℕ → Bool) (m n : ℕ) :
    (fields w s (m + n)).drop m = fields w (fun k => s (w * m + k)) n := by
  rw [fields, List.range_add, List.map_append, List.drop_append_of_le_length (by simp),
    List.drop_of_length_le (by simp), List.nil_append, List.map_map]
  refine List.map_congr_left fun i _ => ?_
  dsimp only [Function.comp]
  congr 2
  funext j
  rw [Nat.mul_add, Nat.add_assoc]

end Bits

end Go
