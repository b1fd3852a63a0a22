import Mathlib.Data.Int.Notation
import Mathlib.Tactic.Common

/-!
# `time.Date` and `time.FixedZone`

A `time.Time` is an instant together with the offset of its zone.  `date` is `time.Date` in a
fixed zone; as documented, values outside their usual ranges are normalised: months carry into
years, and days, hours, minutes and seconds are counted on from the first of the month.

`date_eq` says so with the months numbered through; the later month starts later
(`daysBeforeMonth_lt`).
-/

namespace Go

/-- A `time.Time` in a fixed zone. -/
structure Time where
  /-- Seconds since 1970-01-01 00:00 UTC. -/
  unix : ℤ
  /-- Seconds east of UTC. -/
  offset : ℤ
  deriving DecidableEq

namespace Time

/-- A year of the proleptic Gregorian calendar with 366 days. -/
def isLeap (year : ℤ) : Bool := year % 4 == 0 && (year % 100 != 0 || year % 400 == 0)

/-- Days from 1970-01-01 to the first of January of a year. -/
def daysBeforeYear (year : ℤ) : ℤ :=
  let y := year - 1
  y * 365 + y / 4 - y / 100 + y / 400 - 719162

/-- Days of a common year before the month with this index, January being `0`. -/
def daysBefore : List ℤ := [0, 31, 59, 90, 120, 151, 181, 212, 243, 273, 304, 334]

/-- `time.Date(year, month, day, hour, min, sec, 0, time.FixedZone(name, offset))`. -/
def date (year month day hour min sec offset : ℤ) : Time :=
  let year' := year + (month - 1) / 12
  let m := ((month - 1) % 12).toNat
  let leapDay := if isLeap year' ∧ 2 ≤ m then 1 else 0
  let days := daysBeforeYear year' + daysBefore.getD m 0 + leapDay + (day - 1)
  ⟨days * 86400 + hour * 3600 + min * 60 + sec - offset, offset⟩

/-- `Time.UnixMilli`. -/
def unixMilli (t : Time) : ℤ := t.unix * 1000

/-- The zero `time.Time`, January 1 of year 1. -/
def zero : Time := date 1 1 1 0 0 0 0

example : date 1970 1 1 0 0 0 0 = ⟨0, 0⟩ := by decide
example : date 2024 14 31 12 30 59 3600 = date 2025 3 3 12 30 59 3600 := by decide

/-- The number of days of a month. -/
def daysIn (year month : ℤ) : ℤ :=
  if month = 2 then if isLeap year then 29 else 28
  else if month = 4 ∨ month = 6 ∨ month = 9 ∨ month = 11 then 30 else 31

/-! ### Months -/

/-- Days from 1970-01-01 to the first of a month; the months are numbered, January of year 0 being
`0`. -/
def daysBeforeMonth (n : ℤ) : ℤ :=
  let leapDay := if isLeap (n / 12) ∧ 2 ≤ (n % 12).toNat then 1 else 0
  daysBeforeYear (n / 12) + daysBefore.getD (n % 12).toNat 0 + leapDay

theorem date_eq (year month day hour min sec offset : ℤ) :
    date year month day hour min sec offset =
      ⟨(daysBeforeMonth (12 * year + (month - 1)) + (day - 1)) * 86400 + hour * 3600 + min * 60 +
        sec - offset, offset⟩ := by
  have hyear : (12 * year + (month - 1)) / 12 = year + (month - 1) / 12 := by omega
  have hmonth : (12 * year + (month - 1)) % 12 = (month - 1) % 12 := by omega
  rw [date, daysBeforeMonth, hyear, hmonth]

theorem daysBeforeYear_succ (year : ℤ) :
    daysBeforeYear (year + 1) = daysBeforeYear year + 365 + if isLeap year then 1 else 0 := by
  simp only [daysBeforeYear, isLeap, Bool.and_eq_true, Bool.or_eq_true, beq_iff_eq, bne_iff_ne]
  split_ifs with h <;> omega

theorem daysBeforeMonth_lt_succ (n : ℤ) : daysBeforeMonth n < daysBeforeMonth (n + 1) := by
  have hnonneg := Int.emod_nonneg n (show (12 : ℤ) ≠ 0 by decide)
  have hlt := Int.emod_lt_of_pos n (show (0 : ℤ) < 12 by decide)
  by_cases hdec : n % 12 = 11
  · -- after December comes the first month of a new year
    have hyear : (n + 1) / 12 = n / 12 + 1 := by omega
    have hmonth : (n + 1) % 12 = 0 := by omega
    simp only [daysBeforeMonth, hyear, hmonth, hdec, daysBeforeYear_succ, daysBefore,
      Int.toNat_zero, Int.reduceToNat, List.getD_cons_zero, List.getD_cons_succ]
    split_ifs <;> omega
  · have hyear : (n + 1) / 12 = n / 12 := by omega
    have hmonth : (n + 1) % 12 = n % 12 + 1 := by omega
    simp only [daysBeforeMonth, hyear, hmonth]
    generalize n % 12 = m at *
    have hm : m = 0 ∨ m = 1 ∨ m = 2 ∨ m = 3 ∨ m = 4 ∨ m = 5 ∨ m = 6 ∨ m = 7 ∨ m = 8 ∨ m = 9 ∨
        m = 10 := by omega
    rcases hm with rfl | rfl | rfl | rfl | rfl | rfl | rfl | rfl | rfl | rfl | rfl <;>
      simp only [daysBefore, Int.toNat_zero, Int.reduceToNat, Int.reduceAdd,
        List.getD_cons_zero, List.getD_cons_succ] <;> split_ifs <;> omega

/-- A later month starts later. -/
theorem daysBeforeMonth_lt {m n : ℤ} (h : m < n) : daysBeforeMonth m < daysBeforeMonth n := by
  obtain ⟨d, rfl⟩ : ∃ d : ℕ, n = m + 1 + d := ⟨(n - (m + 1)).toNat, by omega⟩
  clear h
  induction d with
  | zero =>
    rw [Int.ofNat_zero, Int.add_zero]
    exact daysBeforeMonth_lt_succ m
  | succ d ih =>
    have hnext := daysBeforeMonth_lt_succ (m + 1 + d)
    rw [show m + 1 + ((d + 1 : ℕ) : ℤ) = m + 1 + d + 1 by omega]
    omega

end Time

end Go
