import SmsGate.At.Equiv.Text

/-!
# What `decodeSCTS` makes of a time stamp

A `Timestamp` is a date and a time of the years 2000 to 2099 with the offset of a zone, and
`Timestamp.octets` are its seven semi-octet pairs in the layout of 3GPP TS 23.040: two decimal
digits in an octet, the units in the high nibble.

`decodeSCTS` swaps the nibbles of an octet and takes the result for the number.  The nibbles of the
number 24 are then those of 0x24, which is 36: the tens count for 16 (`toNat_swapNibbles_digits`).
All fields are moved in one direction, so they do not make up for each other, and the time is right
exactly if no field has tens (`decodeSCTS_octets_iff`).
-/

namespace SmsGate.At

open Go Go.Outcome

variable {ε : Type}

/-! ### Time stamps -/

/-- A date, a time and the offset of a zone, in quarters of an hour. -/
structure Timestamp where
  year : ℕ
  month : ℕ
  day : ℕ
  hour : ℕ
  minute : ℕ
  second : ℕ
  /-- The zone is west of UTC. -/
  west : Bool
  quarters : ℕ
  year_ge : 2000 ≤ year
  year_lt : year < 2100
  month_pos : 0 < month
  month_le : month ≤ 12
  day_pos : 0 < day
  day_le : day ≤ Time.daysIn year month
  hour_lt : hour < 24
  minute_lt : minute < 60
  second_lt : second < 60
  /-- The tens have three bits, beside the one of the sign. -/
  quarters_lt : quarters < 80

/-- Two decimal digits in one octet, the units in the high nibble. -/
def digits (v : ℕ) : UInt8 := UInt8.ofNat (v % 10 * 16 + v / 10)

/-- The offset in quarters of an hour, with the sign in bit 3. -/
def zoneDigits (west : Bool) (quarters : ℕ) : UInt8 :=
  UInt8.ofNat (quarters % 10 * 16 + (if west then 8 else 0) + quarters / 10)

namespace Timestamp

/-- The time stamp as a PDU carries it. -/
def octets (t : Timestamp) : List UInt8 :=
  [digits (t.year % 100), digits t.month, digits t.day, digits t.hour, digits t.minute,
    digits t.second, zoneDigits t.west t.quarters]

/-- Seconds east of UTC. -/
def offset (t : Timestamp) : ℤ := (if t.west then -1 else 1) * t.quarters * 15 * 60

/-- The time that is meant. -/
def time (t : Timestamp) : Time :=
  Time.date t.year t.month t.day t.hour t.minute t.second t.offset

/-- No field needs a second digit. -/
def OneDigit (t : Timestamp) : Prop :=
  t.year < 2010 ∧ t.month < 10 ∧ t.day < 10 ∧ t.hour < 10 ∧ t.minute < 10 ∧ t.second < 10 ∧
    t.quarters < 10

theorem day_lt (t : Timestamp) : t.day < 32 := by
  have hle := t.day_le
  unfold Time.daysIn at hle
  split_ifs at hle <;> omega

end Timestamp

/-! ### What is read -/

/-- The tens of a field are read as 16 each. -/
theorem toNat_swapNibbles_digits {v : ℕ} (hv : v < 100) :
    (swapNibbles (digits v)).toNat = v + 6 * (v / 10) := by
  have hall : ∀ v : Fin 100, (swapNibbles (digits v)).toNat = v + 6 * (v / 10) := by decide
  exact hall ⟨v, hv⟩

/-- The sign of the offset is read right, and its tens as 16 each. -/
theorem swapNibbles_zoneDigits (west : Bool) {quarters : ℕ} (hq : quarters < 80) :
    (swapNibbles (zoneDigits west quarters) &&& 0x7F).toNat = quarters + 6 * (quarters / 10) ∧
      (swapNibbles (zoneDigits west quarters) &&& 0x80 ≠ 0 ↔ west) := by
  have hall : ∀ (west : Bool) (q : Fin 80),
      (swapNibbles (zoneDigits west q) &&& 0x7F).toNat = q + 6 * (q / 10) ∧
        (swapNibbles (zoneDigits west q) &&& 0x80 ≠ 0 ↔ west) := by decide
  exact hall west ⟨quarters, hq⟩

/-- The number that is read for `v`. -/
def misread (v : ℕ) : ℕ := v + 6 * (v / 10)

theorem sctsTime_octets (t : Timestamp) : sctsTime t.octets =
    Time.date (2000 + misread (t.year % 100)) (misread t.month) (misread t.day) (misread t.hour)
      (misread t.minute) (misread t.second)
      ((if t.west then -1 else 1) * misread t.quarters * 15 * 60) := by
  have hday := t.day_lt
  have hmonth := t.month_le
  have hhour := t.hour_lt
  have hminute := t.minute_lt
  have hsecond := t.second_lt
  obtain ⟨hquarters, hsign⟩ := swapNibbles_zoneDigits t.west t.quarters_lt
  simp only [sctsTime, Timestamp.octets, List.getD_cons_zero, List.getD_cons_succ, hquarters]
  rw [toNat_swapNibbles_digits (by omega), toNat_swapNibbles_digits (by omega),
    toNat_swapNibbles_digits (by omega), toNat_swapNibbles_digits (by omega),
    toNat_swapNibbles_digits (by omega), toNat_swapNibbles_digits (by omega)]
  simp only [hsign]
  rfl

/-- **A time stamp is read right exactly if none of its fields has tens.** -/
theorem decodeSCTS_octets_iff (t : Timestamp) :
    (decodeSCTS t.octets : Outcome ε Time) = .ok t.time ↔ t.OneDigit := by
  have hge := t.year_ge
  have hlt := t.year_lt
  -- the month that is read does not come before the one that is meant
  have hmonth : 12 * (t.year : ℤ) + (t.month - 1) ≤
      12 * (2000 + misread (t.year % 100) : ℤ) + (misread t.month - 1) := by
    unfold misread
    omega
  have hdays : Time.daysBeforeMonth (12 * (t.year : ℤ) + (t.month - 1)) ≤
      Time.daysBeforeMonth (12 * (2000 + misread (t.year % 100) : ℤ) + (misread t.month - 1)) := by
    rcases Int.lt_or_eq_of_le hmonth with hlt | heq
    · exact Int.le_of_lt (Time.daysBeforeMonth_lt hlt)
    · exact Int.le_of_eq (congrArg Time.daysBeforeMonth heq)
  rw [decodeSCTS_eq rfl, sctsTime_octets, Timestamp.time, Outcome.ok.injEq, Time.date_eq,
    Time.date_eq, Time.mk.injEq, Timestamp.offset, Timestamp.OneDigit]
  constructor
  · rintro ⟨hunix, hoffset⟩
    have hquarters : misread t.quarters = t.quarters := by
      split_ifs at hoffset <;> omega
    -- no field comes before the one that is meant, so none comes after it
    have hsame : Time.daysBeforeMonth (12 * (2000 + misread (t.year % 100) : ℤ) +
        (misread t.month - 1)) = Time.daysBeforeMonth (12 * (t.year : ℤ) + (t.month - 1)) ∧
        misread t.day = t.day ∧ misread t.hour = t.hour ∧ misread t.minute = t.minute ∧
        misread t.second = t.second := by
      rw [hquarters] at hunix
      unfold misread at *
      omega
    obtain ⟨hdaysEq, hday, hhour, hminute, hsecond⟩ := hsame
    have hmonthEq : 12 * (t.year : ℤ) + (t.month - 1) =
        12 * (2000 + misread (t.year % 100) : ℤ) + (misread t.month - 1) := by
      rcases Int.lt_or_eq_of_le hmonth with hlt | heq
      · exact absurd hdaysEq.symm (Int.ne_of_lt (Time.daysBeforeMonth_lt hlt))
      · exact heq
    unfold misread at *
    omega
  · rintro ⟨hyear, hmonth, hday, hhour, hminute, hsecond, hquarters⟩
    have hone : ∀ {v : ℕ}, v < 10 → misread v = v := by
      intro v hv
      unfold misread
      omega
    rw [hone (show t.year % 100 < 10 by omega), hone hmonth, hone hday, hone hhour, hone hminute,
      hone hsecond, hone hquarters, show (2000 + (t.year % 100 : ℕ) : ℤ) = t.year by omega]
    exact ⟨rfl, rfl⟩

/-- A time stamp of the first days of 2024 is read as one of 2036. -/
theorem not_decodeSCTS_octets : ∃ t : Timestamp,
    t.octets = [0x42, 0x10, 0x10, 0x00, 0x00, 0x00, 0x00] ∧
      t.time = Time.date 2024 1 1 0 0 0 0 ∧
      (decodeSCTS t.octets : Outcome DecodeErr Time) = .ok (Time.date 2036 1 1 0 0 0 0) ∧
      (decodeSCTS t.octets : Outcome DecodeErr Time) ≠ .ok t.time :=
  ⟨{ year := 2024, month := 1, day := 1, hour := 0, minute := 0, second := 0, west := false
     quarters := 0, year_ge := by decide, year_lt := by decide, month_pos := by decide
     month_le := by decide, day_pos := by decide, day_le := by decide, hour_lt := by decide
     minute_lt := by decide, second_lt := by decide, quarters_lt := by decide },
    by decide, by decide, by decide, by decide⟩

end SmsGate.At
