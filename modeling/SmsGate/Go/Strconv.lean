import SmsGate.Go.Strings
import Mathlib.Algebra.Group.Int.Defs

/-!
# Numbers as text

`strconv.Atoi`, the `%d` verbs of `fmt.Sscanf` and `fmt.Sprintf`, `strings.Split` at one byte, and
the wrap-around of 64-bit integers.
-/

namespace Go

open Utf8

/-- An ASCII digit. -/
def isDigit (b : UInt8) : Bool := 0x30 ≤ b && b ≤ 0x39

/-- The value of an `int` after an operation that may have overflowed. -/
def wrap64 (v : ℤ) : ℤ := (v + 2 ^ 63) % 2 ^ 64 - 2 ^ 63

namespace Strconv

/-- The value of a list of digits. -/
def ofDigits (ds : List UInt8) : ℕ := ds.foldl (fun n d => 10 * n + (d.toNat - 0x30)) 0

/-- Whether a sign is minus, and what follows it. -/
def splitSign : List UInt8 → Bool × List UInt8
  | 0x2D :: ds => (true, ds)
  | 0x2B :: ds => (false, ds)
  | ds => (false, ds)

/-- A signed value, if it fits 64 bits. -/
def inRange (neg : Bool) (n : ℕ) : Option ℤ :=
  let v : ℤ := if neg then -n else n
  if -2 ^ 63 ≤ v ∧ v < 2 ^ 63 then some v else none

/-- `strconv.Atoi`; `none` is its error. -/
def atoi (s : List UInt8) : Option ℤ :=
  let p := splitSign s
  if p.2 ≠ [] ∧ p.2.all isDigit then inRange p.1 (ofDigits p.2) else none

/-- A blank of `fmt.Sscanf`.  The end of a line is none: it is an error where blanks are skipped,
and it begins no number. -/
def isBlank (r : Char) : Bool := isSpace r && r != '\n'

/-- The blanks that the verbs of `fmt.Sscanf` skip. -/
def skipSpace (s : List UInt8) : List UInt8 :=
  ((pieces s).dropWhile fun p => isBlank p.1).flatMap Prod.snd

/-- The verb `%d` of `fmt.Sscanf`: the number and what follows it. -/
def scanInt (s : List UInt8) : Option (ℤ × List UInt8) :=
  let p := splitSign (skipSpace s)
  let ds := p.2.takeWhile isDigit
  if ds ≠ [] then (inRange p.1 (ofDigits ds)).map fun v => (v, p.2.drop ds.length) else none

/-- `fmt.Sscanf(s, " %d", &v)`: a blank of the format stands for one blank of the text at least. -/
def scanSpaceInt (s : List UInt8) : Option ℤ :=
  if (pieces s).head?.any fun p => isBlank p.1 then (scanInt s).map Prod.fst else none

/-- `fmt.Sscanf(s, "%d,%d", &a, &b)`. -/
def scanIntPair (s : List UInt8) : Option (ℤ × ℤ) :=
  (scanInt s).bind fun p =>
    match p.2 with
    | 0x2C :: rest => (scanInt rest).map fun q => (p.1, q.1)
    | _ => none

/-- The verb `%d` of `fmt.Sprintf`. -/
def decimal (n : ℤ) : List UInt8 := lit (toString n)

/-- The runes of a number are its sign and its digits. -/
theorem toList_toString (n : ℤ) :
    (toString n).toList = (if n < 0 then ['-'] else []) ++ Nat.toDigits 10 n.natAbs := by
  cases n with
  | ofNat n =>
    have htext : toString (Int.ofNat n) = toString n := rfl
    have hsign : ¬ Int.ofNat n < 0 := Int.not_lt.mpr (Int.natCast_nonneg n)
    rw [htext, Nat.toString_eq_ofList_toDigits, String.toList_ofList, if_neg hsign]
    rfl
  | negSucc n =>
    have htext : toString (Int.negSucc n) = "-" ++ toString (n + 1) := rfl
    rw [htext, String.toList_append, Nat.toString_eq_ofList_toDigits (n := n + 1),
      String.toList_ofList, String.toList_ofList, if_pos (Int.negSucc_lt_zero n)]
    rfl

/-- A number is told by its text. -/
theorem decimal_inj {m n : ℤ} (h : decimal m = decimal n) : m = n := by
  have hrunes : (toString m).toList = (toString n).toList := encodeRunes_injective h
  have hsign : ∀ {k l : ℕ}, '-' :: Nat.toDigits 10 k ≠ Nat.toDigits 10 l := fun heq =>
    absurd (Nat.isDigit_of_mem_toDigits (by decide) le_rfl (heq ▸ List.mem_cons_self)) (by decide)
  have hdigits : ∀ {k l : ℕ}, Nat.toDigits 10 k = Nat.toDigits 10 l → k = l := by
    intro k l heq
    rw [← Nat.ofDigitChars_ten_toDigits (n := k), heq, Nat.ofDigitChars_ten_toDigits]
  rw [toList_toString, toList_toString] at hrunes
  split_ifs at hrunes with hm hn hn
  · have habs := hdigits (List.cons.inj hrunes).2
    omega
  · exact absurd hrunes hsign
  · exact absurd hrunes.symm hsign
  · have habs := hdigits hrunes
    omega

theorem comma_notMem_decimal (n : ℤ) : 0x2C ∉ decimal n := by
  intro hmem
  obtain ⟨r, hr, hb⟩ := List.mem_flatMap.mp hmem
  have hrange : 0x2D ≤ r.toNat ∧ r.toNat ≤ 0x39 := by
    rw [toList_toString] at hr
    rcases List.mem_append.mp hr with hsign | hdigit
    · split_ifs at hsign
      · obtain rfl := List.mem_singleton.mp hsign
        decide
      · cases hsign
    · have hdigit := Nat.isDigit_of_mem_toDigits (by decide) le_rfl hdigit
      simp only [Char.isDigit, Bool.and_eq_true, decide_eq_true_eq] at hdigit
      exact ⟨le_trans (by decide) hdigit.1, hdigit.2⟩
  have hascii := encodeRune_ascii (r := r) (by omega)
  rw [encodeRune] at hascii
  rw [hascii] at hb
  have hnat := congrArg UInt8.toNat (List.mem_singleton.mp hb)
  rw [UInt8.toNat_ofNat', Nat.mod_eq_of_lt (by omega)] at hnat
  have hcomma : (0x2C : UInt8).toNat = 0x2C := rfl
  omega

/-- A number ends where a comma stands. -/
theorem decimal_comma_inj {m n : ℤ} {s t : List UInt8}
    (h : decimal m ++ 0x2C :: s = decimal n ++ 0x2C :: t) : m = n ∧ s = t := by
  have hcut : ∀ (k : ℤ) (u : List UInt8),
      (decimal k ++ 0x2C :: u).takeWhile (· != 0x2C) = decimal k := by
    intro k u
    rw [List.takeWhile_append_of_pos, List.takeWhile_cons_of_neg (by decide), List.append_nil]
    intro b hb
    exact bne_iff_ne.mpr fun heq => comma_notMem_decimal k (heq ▸ hb)
  have hnumber : decimal m = decimal n := by
    rw [← hcut m s, h, hcut n t]
  rw [hnumber] at h
  exact ⟨decimal_inj hnumber, (List.cons.inj (List.append_cancel_left h)).2⟩

/-- `strings.Split(s, sep)` for a separator of one byte. -/
def split (s : List UInt8) (sep : UInt8) : List (List UInt8) := s.splitOn sep

example : atoi (lit "-12") = some (-12) ∧ atoi (lit "1 ") = none ∧
    scanIntPair (lit "18,99") = some (18, 99) ∧ scanIntPair (lit "18") = none ∧
    scanSpaceInt (lit "  5,1") = some 5 ∧ scanSpaceInt (lit "5") = none ∧
    scanSpaceInt (lit " x") = none ∧ scanSpaceInt (lit " \n5") = none ∧
    split (lit "\"SM\",5") 0x2C = [lit "\"SM\"", lit "5"] := by
  decide

end Strconv

end Go
