import SmsGate.At.Pdu

/-!
# The septet routines are regroupings of one bit stream

`unpackGSM7`, `packGSM7` and `repackWithFill` all read or write the LSB-first bit stream of their
octets:

* `unpackGSM7_eq`: unpacking cuts the octet stream into groups of seven and never indexes out of
  range;
* `packGSM7_eq`: packing cuts the septet stream into groups of eight;
* `repackWithFill_eq`: with fill, the same stream after `fillBits` zero bits.

Each is proved from what one iteration of its loop does to the stream.  `septet_routines` says what
this means for the three together.
-/

namespace SmsGate.At

open Go Go.Bits Go.Outcome

variable {ε : Type}

/-- Values that fit in seven bits. -/
def Septets (c : List UInt8) : Prop := ∀ x ∈ c, x.toNat < 128

instance (c : List UInt8) : Decidable (Septets c) := inferInstanceAs (Decidable (∀ x ∈ c, _))

theorem testBit_septet_of_le {c : UInt8} {j : ℕ} (hc : c.toNat < 128) (hj : 7 ≤ j) :
    c.toNat.testBit j = false :=
  Nat.testBit_lt_two_pow (Nat.lt_of_lt_of_le hc (Nat.pow_le_pow_right (n := 2) (by decide) hj))

/-! ### Unpacking -/

/-- Septet `i` of the bit stream of `data`. -/
def septetAt (data : List UInt8) (i : ℕ) : UInt8 :=
  UInt8.ofNat (Nat.ofBits fun j : Fin 7 => stream 8 data (7 * i + j))

theorem testBit_septetAt (data : List UInt8) (i j : ℕ) :
    (septetAt data i).toNat.testBit j = (decide (j < 7) && stream 8 data (7 * i + j)) := by
  rw [septetAt, testBit_ofNat_ofBits (by decide)]
  by_cases h : j < 7 <;> simp [h]

theorem unpackSeptet_eq {data : List UInt8} {i : ℕ} (h : 7 * i + 7 ≤ 8 * data.length) :
    (unpackSeptet data i : Outcome ε UInt8) = .ok (septetAt data i) := by
  have hpos : i * 7 / 8 < data.length := by omega
  have hbit : i * 7 % 8 < 8 := Nat.mod_lt _ (by decide)
  -- where bit `7 i + j` of the stream stands
  have hdiv : ∀ j, (7 * i + j) / 8 = i * 7 / 8 + (i * 7 % 8 + j) / 8 := fun j => by omega
  have hmod : ∀ j, (7 * i + j) % 8 = (i * 7 % 8 + j) % 8 := fun j => by omega
  have hd0 : data.getD (i * 7 / 8) 0 = data[i * 7 / 8] := by
    rw [List.getD_eq_getElem?_getD, List.getElem?_eq_getElem hpos, Option.getD_some]
  unfold unpackSeptet
  simp only [index_of_lt hpos, ok_bind]
  by_cases hsplit : 1 < i * 7 % 8 ∧ i * 7 / 8 + 1 < data.length
  · have hd1 : data.getD (i * 7 / 8 + 1) 0 = data[i * 7 / 8 + 1] := by
      rw [List.getD_eq_getElem?_getD, List.getElem?_eq_getElem hsplit.2, Option.getD_some]
    rw [if_pos hsplit, index_of_lt hsplit.2, ok_bind, pure_eq_ok]
    congr 1
    apply byte_ext
    intro j _
    rw [testBit_or, testBit_and_0x7F, testBit_and_0x7F, testBit_shiftRight hbit,
      testBit_shiftLeft (by omega), testBit_septetAt, stream, hdiv, hmod]
    by_cases hj : j < 7
    · by_cases hin : i * 7 % 8 + j < 8
      · rw [Nat.div_eq_of_lt hin, Nat.mod_eq_of_lt hin]
        simp only [Nat.add_zero, hd0]
        simp [hj, show ¬ 8 - i * 7 % 8 ≤ j by omega]
      · rw [show (i * 7 % 8 + j) / 8 = 1 by omega, hd1,
          show (i * 7 % 8 + j) % 8 = j - (8 - i * 7 % 8) by omega,
          testBit_byte_of_le (b := data[i * 7 / 8]) (by omega)]
        simp [hj, show 8 - i * 7 % 8 ≤ j by omega, show j < 8 by omega]
    · simp [hj]
  · rw [if_neg hsplit, pure_eq_ok]
    congr 1
    apply byte_ext
    intro j _
    rw [testBit_and_0x7F, testBit_shiftRight hbit, testBit_septetAt, stream, hdiv, hmod]
    by_cases hj : j < 7
    · -- the septet does not reach into the next octet
      have hin : i * 7 % 8 + j < 8 := by omega
      rw [Nat.div_eq_of_lt hin, Nat.mod_eq_of_lt hin, Nat.add_zero, hd0]
      simp [hj]
    · simp [hj]

theorem unpackLoop_eq (data : List UInt8) : ∀ (n i : ℕ) (out : List UInt8), out.length = i + n →
    7 * (i + n) ≤ 8 * data.length →
    (unpackLoop data n i out : Outcome ε (List UInt8)) =
      .ok (out.take i ++ (List.range' i n).map (septetAt data)) := by
  intro n
  induction n with
  | zero =>
    intro i out hlen _
    rw [unpackLoop, List.take_of_length_le (by omega)]
    simp
  | succ n ih =>
    intro i out hlen hfit
    have hin : ¬ data.length ≤ i * 7 / 8 := by omega
    rw [unpackLoop, if_neg hin, unpackSeptet_eq (by omega), ok_bind, store_of_lt (by omega),
      ok_bind, ih (i + 1) _ (by rw [List.length_set]; omega) (by omega), List.take_add_one,
      List.take_set_of_le le_rfl, List.getElem?_set_self (by omega), List.range'_succ]
    simp

/-- **Unpacking** reads groups of seven bits, as many as asked for and as the octets hold. -/
theorem unpackGSM7_eq (data : List UInt8) (n : ℕ) :
    (unpackGSM7 data n : Outcome ε (List UInt8)) =
      .ok (fields 7 (stream 8 data) (min n (data.length * 8 / 7))) := by
  unfold unpackGSM7
  dsimp only
  have hmin : (if data.length * 8 / 7 < n then data.length * 8 / 7 else n) =
      min n (data.length * 8 / 7) := by
    split_ifs <;> omega
  rw [hmin, unpackLoop_eq data _ 0 _ (by simp) (by omega), List.take_zero, List.nil_append,
    ← List.range_eq_range']
  rfl

/-! ### Packing -/

/-- One iteration of `packGSM7` sets the bits of septet `i` and no others. -/
theorem stream_packStep {packed : List UInt8} {i : ℕ} {c : UInt8} (hc : c.toNat < 128)
    (hi : i * 7 / 8 < packed.length) (k : ℕ) :
    stream 8 (packStep packed i c) k =
      (stream 8 packed k || (decide (7 * i ≤ k ∧ k / 8 < packed.length) &&
        c.toNat.testBit (k - 7 * i))) := by
  have hbit : i * 7 % 8 < 8 := Nat.mod_lt _ (by decide)
  have hmod : k % 8 < 8 := Nat.mod_lt _ (by decide)
  have hget : ∀ p, p = k / 8 → (packed.getD p 0).toNat.testBit (k % 8) = stream 8 packed k := by
    rintro p rfl; rfl
  unfold packStep
  dsimp only
  rw [List.length_modify]
  by_cases hsplit : 1 < i * 7 % 8 ∧ i * 7 / 8 + 1 < packed.length
  · rw [if_pos hsplit, stream_modify, List.length_modify]
    by_cases h1 : k / 8 = i * 7 / 8 + 1
    · -- the upper bits go to the next octet
      rw [if_pos ⟨h1, hsplit.2⟩, testBit_or, testBit_shiftRight (by omega)]
      have hnext : (packed.modify (i * 7 / 8) (· ||| c <<< UInt8.ofNat (i * 7 % 8))).getD
          (i * 7 / 8 + 1) 0 = packed.getD (i * 7 / 8 + 1) 0 := by
        rw [List.getD_eq_getElem?_getD, List.getElem?_modify, List.getD_eq_getElem?_getD]
        cases packed[i * 7 / 8 + 1]? <;> simp
      rw [hnext, hget _ h1.symm]
      have hle : 7 * i ≤ k ∧ k / 8 < packed.length := by omega
      rw [decide_eq_true hle, Bool.true_and]
      congr 2
      omega
    · rw [if_neg (by tauto), stream_modify]
      by_cases h0 : k / 8 = i * 7 / 8
      · rw [if_pos ⟨h0, hi⟩, testBit_or, hget _ h0.symm, testBit_shiftLeft hbit]
        by_cases hle : 7 * i ≤ k
        · rw [decide_eq_true (show 7 * i ≤ k ∧ k / 8 < packed.length by omega), decide_eq_true hmod,
            decide_eq_true (show i * 7 % 8 ≤ k % 8 by omega)]
          simp only [Bool.true_and]
          congr 2
          omega
        · simp [hle, show ¬ i * 7 % 8 ≤ k % 8 by omega]
      · rw [if_neg (by tauto)]
        by_cases hle : 7 * i ≤ k
        · rw [testBit_septet_of_le hc (by omega)]
          simp
        · simp [hle]
  · rw [if_neg hsplit, stream_modify]
    by_cases h0 : k / 8 = i * 7 / 8
    · rw [if_pos ⟨h0, hi⟩, testBit_or, hget _ h0.symm, testBit_shiftLeft hbit]
      by_cases hle : 7 * i ≤ k
      · rw [decide_eq_true (show 7 * i ≤ k ∧ k / 8 < packed.length by omega), decide_eq_true hmod,
          decide_eq_true (show i * 7 % 8 ≤ k % 8 by omega)]
        simp only [Bool.true_and]
        congr 2
        omega
      · simp [hle, show ¬ i * 7 % 8 ≤ k % 8 by omega]
    · rw [if_neg (by tauto)]
      by_cases hle : 7 * i ≤ k ∧ k / 8 < packed.length
      · rw [testBit_septet_of_le hc (by omega)]
        simp
      · simp [hle]

@[simp] theorem length_packStep (packed : List UInt8) (i : ℕ) (c : UInt8) :
    (packStep packed i c).length = packed.length := by
  unfold packStep
  dsimp only
  split_ifs <;> simp only [List.length_modify]

theorem length_packLoop (chars : List UInt8) : ∀ (i : ℕ) (packed : List UInt8),
    ((chars.zipIdx i).foldl (fun packed p => packStep packed p.2 p.1) packed).length =
      packed.length := by
  induction chars with
  | nil => intros; rfl
  | cons c cs ih =>
    intro i packed
    rw [List.zipIdx_cons, List.foldl_cons, ih, length_packStep]

/-- The loop of `packGSM7` from septet `i` on lays the stream of the septets down from bit `7 i`. -/
theorem stream_packLoop : ∀ (chars : List UInt8) (i : ℕ) (packed : List UInt8), Septets chars →
    7 * (i + chars.length) ≤ 8 * packed.length → ∀ k < 8 * packed.length,
    stream 8 ((chars.zipIdx i).foldl (fun packed p => packStep packed p.2 p.1) packed) k =
      (stream 8 packed k || (decide (7 * i ≤ k) && stream 7 chars (k - 7 * i))) := by
  intro chars
  induction chars with
  | nil =>
    intro i packed _ _ k _
    rw [stream_of_le (w := 7) (by decide) (by simp), Bool.and_false, Bool.or_false]
    rfl
  | cons c cs ih =>
    intro i packed hc hfit k hk
    obtain ⟨hc0, hcs⟩ := List.forall_mem_cons.mp hc
    rw [List.length_cons] at hfit
    rw [List.zipIdx_cons, List.foldl_cons, ih (i + 1) _ hcs (by rw [length_packStep]; omega) k
      (by rw [length_packStep]; omega), stream_packStep hc0 (by omega), stream_cons (by decide),
      Bool.or_assoc]
    congr 1
    by_cases hle : 7 * i ≤ k
    · rw [decide_eq_true hle, decide_eq_true (show 7 * i ≤ k ∧ k / 8 < packed.length by omega),
        Bool.true_and, Bool.true_and]
      by_cases hlt : k - 7 * i < 7
      · rw [if_pos hlt, decide_eq_false (by omega), Bool.false_and, Bool.or_false]
      · rw [if_neg hlt, decide_eq_true (by omega), Bool.true_and,
          testBit_septet_of_le hc0 (by omega), Bool.false_or]
        rfl
    · simp [hle, show ¬ 7 * (i + 1) ≤ k by omega]

/-- **Packing** cuts the stream of the septets into octets, the last one filled up with zeros. -/
theorem packGSM7_eq {chars : List UInt8} (hc : Septets chars) :
    packGSM7 chars = fields 8 (stream 7 chars) ((chars.length * 7 + 7) / 8) := by
  refine eq_fields (by decide) (by decide) ?_ (fun x _ => x.toNat_lt) fun k hk => ?_
  · rw [packGSM7, length_packLoop, List.length_replicate]
  · rw [packGSM7, stream_packLoop chars 0 _ hc (by rw [List.length_replicate]; omega) k
      (by rw [List.length_replicate]; omega), stream_replicate_zero]
    simp

theorem length_packGSM7 (chars : List UInt8) :
    (packGSM7 chars).length = (chars.length * 7 + 7) / 8 := by
  rw [packGSM7, length_packLoop, List.length_replicate]

/-! ### Packing after fill bits -/

/-- One iteration of the loop of `repackWithFill` sets bit `i` if the array has a one there. -/
theorem stream_repackStep {out : List UInt8} {i : ℕ} (hi : i < 8 * out.length) (b : UInt8)
    (k : ℕ) :
    stream 8 (if b ≠ 0 then out.modify (i / 8) (· ||| (1 : UInt8) <<< UInt8.ofNat (i % 8))
        else out) k =
      (stream 8 out k || (decide (i = k) && decide (b ≠ 0))) := by
  by_cases hb : b = 0
  · simp [hb]
  · rw [if_pos hb, stream_modify]
    by_cases hdiv : k / 8 = i / 8
    · rw [if_pos ⟨hdiv, by omega⟩, testBit_or, testBit_shiftLeft (by omega), UInt8.toNat_one,
        ← Nat.pow_zero 2, Nat.testBit_two_pow, ← hdiv, ← stream,
        decide_eq_true (Nat.mod_lt k (by decide)), Bool.true_and, ← Bool.decide_and,
        decide_eq_true hb, Bool.and_true]
      congr 2
      rw [eq_iff_iff]
      omega
    · rw [if_neg (by tauto), decide_eq_false (by omega), Bool.false_and, Bool.or_false]

/-- The loop of `repackWithFill`, with its bit array from bit `i` on. -/
theorem stream_repackLoop : ∀ (bits : List UInt8) (i : ℕ) (out : List UInt8),
    i + bits.length ≤ 8 * out.length → ∀ k < 8 * out.length,
    stream 8 ((bits.zipIdx i).foldl (fun out p =>
        if p.1 ≠ 0 then out.modify (p.2 / 8) (· ||| (1 : UInt8) <<< UInt8.ofNat (p.2 % 8))
        else out) out) k =
      (stream 8 out k || (decide (i ≤ k) && decide (bits.getD (k - i) 0 ≠ 0))) := by
  intro bits
  induction bits with
  | nil => intros; simp
  | cons b bs ih =>
    intro i out hfit k hk
    rw [List.length_cons] at hfit
    rw [List.zipIdx_cons, List.foldl_cons, ih (i + 1) _ ?_ k ?_, stream_repackStep (by omega),
      Bool.or_assoc]
    · congr 1
      by_cases hik : i = k
      · subst hik
        simp
      · by_cases hlt : i ≤ k
        · obtain ⟨m, rfl⟩ : ∃ m, k = i + 1 + m := ⟨k - (i + 1), by omega⟩
          rw [show i + 1 + m - i = m + 1 by omega]
          simp [hik, hlt]
        · simp [hik, hlt, show ¬ i + 1 ≤ k by omega]
    · split_ifs
      · rw [List.length_modify]
        omega
      · omega
    · split_ifs
      · rwa [List.length_modify]
      · exact hk

/-- The bits that `repackWithFill` lays out for its septets are their stream. -/
theorem getD_septetBits (chars : List UInt8) : ∀ k : ℕ,
    decide ((chars.flatMap fun c : UInt8 =>
        (List.range 7).map fun b => (c >>> UInt8.ofNat b) &&& 1).getD k 0 ≠ 0) =
      stream 7 chars k := by
  have hbit : ∀ c : UInt8, ∀ j : Fin 7,
      decide ((c >>> UInt8.ofNat j) &&& 1 ≠ 0) = c.toNat.testBit j := by decide +kernel
  induction chars with
  | nil =>
    intro k
    rw [stream_of_le (by decide) (by simp)]
    simp
  | cons c cs ih =>
    intro k
    rw [List.flatMap_cons, stream_cons (by decide)]
    split_ifs with hk
    · rw [List.getD_append _ _ _ _ (by simpa using hk), ← hbit c ⟨k, hk⟩,
        List.getD_eq_getElem?_getD]
      simp [hk]
    · rw [List.getD_append_right _ _ _ _ (by simpa using hk), ← ih]
      simp

theorem length_fillBitArray (chars : List UInt8) (fillBits : ℕ) :
    (fillBitArray chars fillBits).length = fillBits + 7 * chars.length := by
  rw [fillBitArray, List.length_append, List.length_replicate, List.length_flatMap]
  simp [Nat.mul_comm]

theorem getD_fillBitArray (chars : List UInt8) (fillBits k : ℕ) :
    decide ((fillBitArray chars fillBits).getD k 0 ≠ 0) =
      (decide (fillBits ≤ k) && stream 7 chars (k - fillBits)) := by
  rw [fillBitArray]
  by_cases hk : fillBits ≤ k
  · rw [List.getD_append_right _ _ _ _ (by simpa using hk), List.length_replicate,
      getD_septetBits, decide_eq_true hk, Bool.true_and]
  · rw [List.getD_append _ _ _ _ (by simpa using hk), decide_eq_false hk, Bool.false_and,
      List.getD_eq_getElem?_getD]
    simp [show k < fillBits by omega]

theorem length_repackLoop (bits : List UInt8) : ∀ (i : ℕ) (out : List UInt8),
    ((bits.zipIdx i).foldl (fun out p =>
        if p.1 ≠ 0 then out.modify (p.2 / 8) (· ||| (1 : UInt8) <<< UInt8.ofNat (p.2 % 8))
        else out) out).length = out.length := by
  induction bits with
  | nil => intros; rfl
  | cons b bs ih =>
    intro i out
    rw [List.zipIdx_cons, List.foldl_cons, ih]
    split_ifs
    · rw [List.length_modify]
    · rfl

theorem length_repackWithFill (chars : List UInt8) (fillBits : ℕ) :
    (repackWithFill chars fillBits).length = (fillBits + 7 * chars.length + 7) / 8 := by
  rw [repackWithFill, length_repackLoop, List.length_replicate, length_fillBitArray]

/-- The stream of octets packed with fill: the fill bits are zeros. -/
theorem stream_repackWithFill (chars : List UInt8) (fillBits k : ℕ) :
    stream 8 (repackWithFill chars fillBits) k =
      (decide (fillBits ≤ k) && stream 7 chars (k - fillBits)) := by
  by_cases hk : k < 8 * ((fillBits + 7 * chars.length + 7) / 8)
  · rw [repackWithFill, stream_repackLoop _ 0 _ ?_ k ?_, stream_replicate_zero, Bool.false_or,
      Nat.sub_zero, getD_fillBitArray, decide_eq_true (Nat.zero_le k), Bool.true_and]
    · rw [List.length_replicate, length_fillBitArray]
      omega
    · rwa [List.length_replicate, length_fillBitArray]
  · rw [stream_of_le (w := 8) (by decide) (by rw [length_repackWithFill]; omega),
      stream_of_le (w := 7) (by decide) (by omega), Bool.and_false]

/-- **Packing with fill** is packing of the stream behind that many zero bits. -/
theorem repackWithFill_eq (chars : List UInt8) (fillBits : ℕ) :
    repackWithFill chars fillBits =
      fields 8 (fun k => decide (fillBits ≤ k) && stream 7 chars (k - fillBits))
        ((fillBits + 7 * chars.length + 7) / 8) :=
  eq_fields (by decide) (by decide) (length_repackWithFill chars fillBits)
    (fun x _ => x.toNat_lt) fun k _ => stream_repackWithFill chars fillBits k

/-! ### Round trips -/

theorem fields_stream_septets {chars : List UInt8} (hc : Septets chars) :
    fields 7 (stream 7 chars) chars.length = chars :=
  fields_stream (w := 7) (by decide) (by decide) hc

/-- Unpacking inverts packing. -/
theorem unpackGSM7_packGSM7 {chars : List UInt8} (hc : Septets chars) :
    (unpackGSM7 (packGSM7 chars) chars.length : Outcome ε (List UInt8)) = .ok chars := by
  rw [unpackGSM7_eq, length_packGSM7, Nat.min_eq_left (by omega), packGSM7_eq hc]
  congr 1
  conv_rhs => rw [← fields_stream_septets hc]
  exact fields_congr fun k hk => stream_fields (by decide) (by decide) _ (by omega)

/-- Packing is packing without fill bits. -/
theorem packGSM7_eq_repackWithFill {chars : List UInt8} (hc : Septets chars) :
    packGSM7 chars = repackWithFill chars 0 := by
  have hlen : (0 + 7 * chars.length + 7) / 8 = (chars.length * 7 + 7) / 8 := by omega
  rw [packGSM7_eq hc, repackWithFill_eq, hlen]
  refine fields_congr fun k _ => ?_
  rw [decide_eq_true (Nat.zero_le k), Bool.true_and, Nat.sub_zero]

/-- What was asked for is unpacked, bit by bit, where the octets hold that many septets. -/
theorem testBit_unpackGSM7 {data : List UInt8} {n : ℕ} (hn : n ≤ 8 * data.length / 7) :
    ∃ out, (unpackGSM7 data n : Outcome ε (List UInt8)) = .ok out ∧ out.length = n ∧
      ∀ i < n, ∀ j < 7, (out.getD i 0).toNat.testBit j = stream 8 data (7 * i + j) := by
  have hmin : min n (data.length * 8 / 7) = n := by omega
  refine ⟨fields 7 (stream 8 data) n, ?_, length_fields _ _ _, fun i hi j hj => ?_⟩
  · rw [unpackGSM7_eq, hmin]
  · rw [getD_fields _ hi, testBit_ofNat_ofBits (by decide), dif_pos hj]

/-- **One bit stream.**  Unpacking undoes packing, packing is packing with no fill, and bit `j` of
the `i`-th septet unpacked from octets is bit `7 i + j` of the octets, the least significant bit
first. -/
theorem septet_routines :
    (∀ c : List UInt8, Septets c →
      (unpackGSM7 (packGSM7 c) c.length : Outcome ε (List UInt8)) = .ok c ∧
        packGSM7 c = repackWithFill c 0) ∧
    ∀ (d : List UInt8) (n : ℕ), n ≤ 8 * d.length / 7 →
      ∃ out, (unpackGSM7 d n : Outcome ε (List UInt8)) = .ok out ∧ out.length = n ∧
        ∀ i < n, ∀ j < 7, (out.getD i 0).toNat.testBit j = stream 8 d (7 * i + j) :=
  ⟨fun _ hc => ⟨unpackGSM7_packGSM7 hc, packGSM7_eq_repackWithFill hc⟩,
    fun _ _ hn => testBit_unpackGSM7 hn⟩

/-- Three septets in three octets, and the second septet of two octets. -/
theorem septet_routines_hi :
    packGSM7 [0x48, 0x69, 0x21] = [0xC8, 0x74, 0x08] ∧
      (unpackGSM7 [0xC8, 0x74, 0x08] 3 : Outcome Unit (List UInt8)) = .ok [0x48, 0x69, 0x21] ∧
      ∃ out, (unpackGSM7 [0xC8, 0x34] 2 : Outcome Unit (List UInt8)) = .ok out ∧
        (out.getD 1 0).toNat.testBit 6 = stream 8 [0xC8, 0x34] 13 := by
  obtain ⟨hpack, hunpack⟩ := septet_routines (ε := Unit)
  have hall : [0x48, 0x69, 0x21].all (fun x : UInt8 => x.toNat < 128) = true := rfl
  have hpacked := hpack [0x48, 0x69, 0x21] fun x hx =>
    of_decide_eq_true (List.all_eq_true.mp hall x hx)
  obtain ⟨out, hout, -, hbits⟩ := hunpack [0xC8, 0x34] 2 (by decide)
  exact ⟨rfl, hpacked.1, out, hout, hbits 1 (by decide) 6 (by decide)⟩

/-- Behind a header of `h` septets' worth of bits, the fill included, unpacking gives the septets
back. -/
theorem drop_unpackGSM7_repackWithFill {chars hdr : List UInt8} {h fillBits : ℕ}
    (hc : Septets chars) (hfill : 7 * h = 8 * hdr.length + fillBits) :
    ∃ codes, (unpackGSM7 (hdr ++ repackWithFill chars fillBits) (h + chars.length) :
        Outcome ε (List UInt8)) = .ok codes ∧ codes.drop h = chars := by
  refine ⟨_, unpackGSM7_eq _ _, ?_⟩
  rw [List.length_append, length_repackWithFill, Nat.min_eq_left (by omega), drop_fields]
  conv_rhs => rw [← fields_stream_septets hc]
  refine fields_congr fun k _ => ?_
  rw [hfill, Nat.add_assoc, stream_append_right (by decide), stream_repackWithFill]
  simp

/-- Without the header, what unpacking reads is the stream shifted up by the fill bits. -/
theorem unpackGSM7_repackWithFill (chars : List UInt8) (fillBits : ℕ) :
    (unpackGSM7 (repackWithFill chars fillBits) chars.length : Outcome ε (List UInt8)) =
      .ok (fields 7 (fun k => decide (fillBits ≤ k) && stream 7 chars (k - fillBits))
        chars.length) := by
  rw [unpackGSM7_eq, length_repackWithFill, Nat.min_eq_left (by omega)]
  congr 1
  exact fields_congr fun k _ => stream_repackWithFill chars fillBits k

end SmsGate.At
