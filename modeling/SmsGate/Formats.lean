import SmsGate.Go.Strconv

/-!
# The two format checks

`validE164` (`internal/modem/worker.go`) and `validICCID` (`internal/buffer/buffer.go`), the
regular expressions that guard the destination of a message and the ICCID a row is stored under.
In Go's syntax `\d` is an ASCII digit and `$` is the end of the text.
-/

namespace SmsGate

open Go

/-- `^\+[1-9]\d{6,14}$`. -/
def validE164 : List UInt8 → Bool
  | plus :: first :: rest =>
    plus == 0x2B && (0x31 ≤ first && first ≤ 0x39) && rest.all isDigit &&
      (6 ≤ rest.length && rest.length ≤ 14)
  | _ => false

/-- `^\d{19,20}$`. -/
def validICCID (s : List UInt8) : Bool := s.all isDigit && (19 ≤ s.length && s.length ≤ 20)

/-- An E.164 number is a plus sign and 7 to 15 digits. -/
theorem exists_digits_of_validE164 {s : List UInt8} (h : validE164 s) :
    ∃ ds, s = 0x2B :: ds ∧ (∀ d ∈ ds, isDigit d) ∧ 7 ≤ ds.length ∧ ds.length ≤ 15 := by
  have hfirst : ∀ d : UInt8, 0x31 ≤ d → d ≤ 0x39 → isDigit d = true := by
    intro d h1 h2
    rw [UInt8.le_iff_toNat_le] at h1 h2
    simp only [isDigit, Bool.and_eq_true, decide_eq_true_eq, UInt8.le_iff_toNat_le]
    exact ⟨Nat.le_trans (by decide) h1, h2⟩
  match s, h with
  | plus :: first :: rest, h =>
    simp only [validE164, Bool.and_eq_true, beq_iff_eq, decide_eq_true_eq, List.all_eq_true] at h
    obtain ⟨⟨⟨rfl, h1, h2⟩, hrest⟩, hmin, hmax⟩ := h
    refine ⟨first :: rest, rfl, List.forall_mem_cons.mpr ⟨hfirst first h1 h2, hrest⟩, ?_, ?_⟩
    · rw [List.length_cons]; omega
    · rw [List.length_cons]; omega

end SmsGate
