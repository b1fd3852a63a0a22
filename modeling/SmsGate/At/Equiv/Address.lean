import SmsGate.At.Equiv.Encode

/-!
# Semi-octet addresses in both directions

`encodeBCDAddress` packs two digits into an octet, the first one below, and fills up an odd number
of them with 0xF; `decodeBCDAddress` unpacks them and stops at a nibble 0xF.

* `bcdDigits_packDigits` goes from the digits to the octets and back;
* `packDigits_nibbles` goes from the octets to the digits and back.  A nibble above 9 is read as one
  of the characters behind `9`, none of which is the padding digit `F`;
* `bcdAddress_roundtrip` adds the type octet, which is told by the first character.
-/

namespace SmsGate.At

open Go Go.Bits Go.Outcome

variable {ε : Type}

/-- `data` with the high nibble that an odd number of digits leaves unused set to 0xF. -/
def fillUnused (n : ℕ) (data : List UInt8) : List UInt8 :=
  if n % 2 = 1 then data.modify (n / 2) (· ||| 0xF0) else data

/-! ### From the octets to the digits -/

theorem packPair_nibbles : ∀ b : UInt8,
    packPair ((0x30 : UInt8) + (b &&& 0x0F)) ((0x30 : UInt8) + ((b >>> 4) &&& 0x0F)) = b ∧
      packPair ((0x30 : UInt8) + (b &&& 0x0F)) 0x46 = b ||| 0xF0 :=
  byte_cases (by decide)

theorem packDigits_cons_cons (x y : UInt8) (ds : List UInt8) :
    packDigits (x :: y :: ds) = packPair x y :: packDigits ds := by
  have hodd : (x :: y :: ds).length % 2 = ds.length % 2 := by
    rw [List.length_cons, List.length_cons]
    omega
  rw [packDigits, packDigits, hodd]
  split_ifs <;> rfl

/-- The digits of the first `n` nibbles are packed into the octets that they come from. -/
theorem packDigits_nibbles (data : List UInt8) : ∀ n : ℕ, data.length = (n + 1) / 2 →
    packDigits (((nibbles data).take n).map (0x30 + ·)) = fillUnused n data := by
  induction data with
  | nil =>
    intro n hlen
    obtain rfl : n = 0 := by
      rw [List.length_nil] at hlen
      omega
    rfl
  | cons b data ih =>
    intro n hlen
    obtain ⟨hboth, hlow⟩ := packPair_nibbles b
    have hcons : nibbles (b :: data) = (b &&& 0x0F) :: ((b >>> 4) &&& 0x0F) :: nibbles data := rfl
    rw [List.length_cons] at hlen
    rcases n with _ | _ | n
    · omega
    · -- the last digit, with padding above it
      obtain rfl : data = [] := List.length_eq_zero_iff.mp (by omega)
      exact congrArg (fun x => [x]) hlow
    · have hodd : (n + 1 + 1) % 2 = n % 2 := by omega
      have hhalf : (n + 1 + 1) / 2 = n / 2 + 1 := by omega
      rw [hcons, List.take_succ_cons, List.take_succ_cons, List.map_cons, List.map_cons,
        packDigits_cons_cons, hboth, ih n (by omega), fillUnused, fillUnused, hodd, hhalf,
        List.modify_succ_cons]
      split_ifs <;> rfl

theorem length_digits {data : List UInt8} {n : ℕ} (hlen : data.length = (n + 1) / 2) :
    (((nibbles data).take n).map (0x30 + ·)).length = n := by
  rw [List.length_map, List.length_take, length_nibbles]
  omega

/-- Where no nibble is padding, each is a digit. -/
theorem bcdDigits_of_forall_ne {data : List UInt8} {n : ℕ}
    (h : ∀ x ∈ (nibbles data).take n, x ≠ 0x0F) :
    bcdDigits data n = ((nibbles data).take n).map (0x30 + ·) := by
  rw [bcdDigits, List.takeWhile_eq_self_iff.mpr fun x hx => decide_eq_true (h x hx)]

/-! ### The first character -/

theorem encodeBCDAddress_of_not_plus {ds : List UInt8} (h : ∀ d ∈ ds, d ≠ 0x2B) :
    encodeBCDAddress ds = (ds.length, 0x81, packDigits ds) := by
  have hplus : Strings.hasPrefix ds (lit "+") = false := by
    cases ds with
    | nil => rfl
    | cons d ds =>
      have hd : ((0x2B : UInt8) == d) = false :=
        beq_eq_false_iff_ne.mpr (h d List.mem_cons_self).symm
      change ((0x2B : UInt8) == d && _) = false
      rw [hd, Bool.false_and]
  unfold encodeBCDAddress
  dsimp only
  rw [hplus]
  exact congrArg (fun data => (ds.length, 0x81, data)) (map_range_pairs packPair _)

theorem ne_plus_of_isDigit {d : UInt8} (hd : isDigit d) : d ≠ 0x2B := by
  rintro rfl
  cases hd

/-- No nibble is read as a plus sign. -/
theorem ne_plus_of_nibble {data : List UInt8} {n : ℕ} :
    ∀ d ∈ ((nibbles data).take n).map (0x30 + ·), d ≠ 0x2B := by
  have hmask : ∀ b : UInt8, (0x30 : UInt8) + (b &&& 0x0F) ≠ 0x2B := byte_cases (by decide)
  intro d hd
  obtain ⟨x, hx, rfl⟩ := List.mem_map.mp hd
  obtain ⟨b, -, hb⟩ := List.mem_flatMap.mp (List.mem_of_mem_take hx)
  rcases List.mem_pair.mp hb with rfl | rfl
  · exact hmask b
  · exact hmask (b >>> 4)

/-! ### The main result -/

/-- **Addresses survive in both directions.**  A string of digits, with or without a plus sign in
front, is encoded to what is decoded to it.  Octets whose first `n` nibbles are not 0xF are decoded
to what is encoded to `n`, the type octet and these octets, with an unused last nibble set to
0xF. -/
theorem bcdAddress_roundtrip :
    (∀ m ds : List UInt8, (∀ d ∈ ds, isDigit d) → m = ds ∨ m = 0x2B :: ds →
      (decodeBCDAddress (encodeBCDAddress m).2.2 (encodeBCDAddress m).1 (encodeBCDAddress m).2.1 :
        Outcome ε (List UInt8)) = .ok m) ∧
    ∀ (n : ℕ) (t : UInt8) (data : List UInt8), t = 0x81 ∨ t = 0x91 →
      data.length = (n + 1) / 2 → (∀ x ∈ (nibbles data).take n, x ≠ 0x0F) →
      ∃ m, (decodeBCDAddress data n t : Outcome ε (List UInt8)) = .ok m ∧
        encodeBCDAddress m = (n, t, fillUnused n data) := by
  refine ⟨fun m ds hds hm => ?_, fun n t data ht hlen hnibbles => ?_⟩
  · rcases hm with rfl | rfl
    · rw [encodeBCDAddress_of_not_plus fun d hd => ne_plus_of_isDigit (hds d hd),
        decodeBCDAddress_eq, address_national, bcdDigits_packDigits hds le_rfl]
    · exact decodeBCDAddress_encodeBCDAddress hds
  · refine ⟨_, decodeBCDAddress_eq data n t, ?_⟩
    rcases ht with rfl | rfl
    · rw [address_national, bcdDigits_of_forall_ne hnibbles,
        encodeBCDAddress_of_not_plus ne_plus_of_nibble, length_digits hlen,
        packDigits_nibbles data n hlen]
    · rw [address_international, bcdDigits_of_forall_ne hnibbles, encodeBCDAddress_plus,
        length_digits hlen, packDigits_nibbles data n hlen]

/-- Eleven digits with a plus sign, and three nibbles of which one is above 9. -/
theorem bcdAddress_roundtrip_odd :
    (encodeBCDAddress (lit "+14155550123")).2.2 = [0x41, 0x51, 0x55, 0x05, 0x21, 0xF3] ∧
      (decodeBCDAddress [0x41, 0x51, 0x55, 0x05, 0x21, 0xF3] 11 0x91 : Outcome Unit (List UInt8)) =
        .ok (lit "+14155550123") ∧
      ∃ m, (decodeBCDAddress [0xA1, 0x02] 3 0x81 : Outcome Unit (List UInt8)) = .ok m ∧
        encodeBCDAddress m = (3, 0x81, [0xA1, 0xF2]) := by
  obtain ⟨hencode, hdecode⟩ := bcdAddress_roundtrip (ε := Unit)
  have hnibbles : ((nibbles [0xA1, 0x02]).take 3).all (fun x => x ≠ 0x0F) = true := rfl
  refine ⟨rfl, hencode _ (lit "14155550123") (List.all_eq_true.mp rfl) (.inr rfl),
    hdecode 3 0x81 [0xA1, 0x02] (.inl rfl) rfl fun x hx => ?_⟩
  exact of_decide_eq_true (List.all_eq_true.mp hnibbles x hx)

end SmsGate.At
