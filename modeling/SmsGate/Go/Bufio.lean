import SmsGate.Go.Strings

/-!
# `bufio.Scanner` with its default splitter

A scanner keeps the bytes it has read and not handed out.  `Scan` hands out the bytes in front of
the next newline; it reads more only when there is none, and what is left at the end of the stream
is the last token.  The token of a line has lost one trailing carriage return.

* `lines`: the complete lines of a stream, as a function of its bytes;
* `Scanned`: some tokens have been handed out and some bytes are left.  It is kept by scanning
  (`Scanned.scan`), by reading in chunks of any size, since that only moves bytes that are left, and
  by bytes that arrive (`Scanned.append`).  Once no newline is left the tokens are the lines of the
  stream (`Scanned.lines_eq`).
-/

namespace Go.Bufio

open Strings

/-- `dropCR`. -/
def dropCR (s : List UInt8) : List UInt8 := if s.getLast? = some 0x0D then s.dropLast else s

/-- What stands in front of the first newline, and what stands behind it. -/
def cut : List UInt8 → Option (List UInt8 × List UInt8)
  | [] => none
  | b :: s => if b = 0x0A then some ([], s) else (cut s).map fun p => (b :: p.1, p.2)

/-- The tokens of the complete lines, where `cur` is the line so far. -/
def linesFrom (cur : List UInt8) : List UInt8 → List (List UInt8)
  | [] => []
  | b :: s => if b = 0x0A then dropCR cur :: linesFrom [] s else linesFrom (cur ++ [b]) s

/-- The tokens of the complete lines of a stream. -/
def lines (s : List UInt8) : List (List UInt8) := linesFrom [] s

/-- A scanner. -/
structure Scanner where
  /-- What has been read and not handed out. -/
  buf : List UInt8
  /-- A read has failed: there will be no more bytes. -/
  eof : Bool

/-- `Scan` with buffers of at most `max` bytes: a token, or `none` when it returns false.  It waits
as long as there is no newline, the stream has not ended and the buffer is not full. -/
def Scanner.scan (max : ℕ) (s : Scanner) : Option (Option (List UInt8) × Scanner) :=
  match cut s.buf with
  | some (l, r) => some (some (dropCR l), { s with buf := r })
  | none =>
    if s.eof then
      if s.buf = [] then some (none, s) else some (some (dropCR s.buf), { s with buf := [] })
    else if max ≤ s.buf.length then some (none, s)
    else none

/-- A read while `Scan` waits. -/
def Scanner.fill (max : ℕ) (s : Scanner) (chunk : List UInt8) : Option Scanner :=
  if cut s.buf = none ∧ s.eof = false ∧ chunk ≠ [] ∧ s.buf.length + chunk.length ≤ max then
    some { s with buf := s.buf ++ chunk }
  else none

/-- A read that fails while `Scan` waits. -/
def Scanner.finish (s : Scanner) : Option Scanner :=
  if cut s.buf = none then some { s with eof := true } else none

/-! ### Lines -/

theorem cut_eq_some {s l r : List UInt8} (h : cut s = some (l, r)) :
    s = l ++ 0x0A :: r ∧ 0x0A ∉ l := by
  induction s generalizing l with
  | nil => cases h
  | cons b s ih =>
    unfold cut at h
    by_cases hb : b = 0x0A
    · rw [if_pos hb] at h
      cases h
      exact ⟨by rw [hb, List.nil_append], List.not_mem_nil⟩
    · rw [if_neg hb] at h
      obtain ⟨⟨l', r'⟩, hcut, hp⟩ := Option.map_eq_some_iff.mp h
      cases hp
      obtain ⟨hs, hl⟩ := ih hcut
      refine ⟨by rw [hs, List.cons_append], ?_⟩
      rintro (_ | ⟨_, hmem⟩)
      · exact hb rfl
      · exact hl hmem

theorem cut_eq_none {s : List UInt8} : cut s = none ↔ 0x0A ∉ s := by
  induction s with
  | nil => exact ⟨fun _ => List.not_mem_nil, fun _ => rfl⟩
  | cons b s ih =>
    unfold cut
    by_cases hb : b = 0x0A
    · rw [if_pos hb, hb]
      exact ⟨nofun, fun h => absurd List.mem_cons_self h⟩
    · rw [if_neg hb, Option.map_eq_none_iff, ih, List.mem_cons, not_or]
      exact ⟨fun h => ⟨Ne.symm hb, h⟩, fun h => h.2⟩

theorem linesFrom_append {l : List UInt8} (hl : 0x0A ∉ l) (cur s : List UInt8) :
    linesFrom cur (l ++ s) = linesFrom (cur ++ l) s := by
  induction l generalizing cur with
  | nil => rw [List.nil_append, List.append_nil]
  | cons b l ih =>
    rw [List.mem_cons, not_or] at hl
    rw [List.cons_append, linesFrom, if_neg (Ne.symm hl.1), ih hl.2, List.append_assoc]
    rfl

theorem lines_of_notMem {s : List UInt8} (h : 0x0A ∉ s) : lines s = [] := by
  have hs := linesFrom_append h [] []
  rwa [List.append_nil] at hs

/-- The first line of a stream. -/
theorem lines_cons {l : List UInt8} (hl : 0x0A ∉ l) (r : List UInt8) :
    lines (l ++ 0x0A :: r) = dropCR l :: lines r := by
  rw [lines, linesFrom_append hl, List.nil_append, linesFrom, if_pos rfl]
  rfl

/-- A tail without a newline adds no line. -/
theorem linesFrom_append_tail (cur s : List UInt8) {x : List UInt8} (hx : 0x0A ∉ x) :
    linesFrom cur (s ++ x) = linesFrom cur s := by
  induction s generalizing cur with
  | nil =>
    have h := linesFrom_append hx cur []
    rwa [List.append_nil] at h
  | cons b s ih =>
    rw [List.cons_append, linesFrom, linesFrom, ih, ih]

theorem lines_append_tail (s : List UInt8) {x : List UInt8} (hx : 0x0A ∉ x) :
    lines (s ++ x) = lines s :=
  linesFrom_append_tail [] s hx

/-- More bytes only add lines. -/
theorem linesFrom_prefix_append (cur s x : List UInt8) :
    linesFrom cur s <+: linesFrom cur (s ++ x) := by
  induction s generalizing cur with
  | nil => exact List.nil_prefix
  | cons b s ih =>
    rw [List.cons_append, linesFrom, linesFrom]
    split_ifs
    · exact List.cons_prefix_cons.mpr ⟨rfl, ih []⟩
    · exact ih (cur ++ [b])

theorem lines_prefix_append (s x : List UInt8) : lines s <+: lines (s ++ x) :=
  linesFrom_prefix_append [] s x

/-! ### What a scanner does -/

/-- A token is a complete line unless the stream has ended. -/
theorem Scanner.scan_cases {max : ℕ} {s s' : Scanner} {token : Option (List UInt8)}
    (h : s.scan max = some (token, s')) :
    (∃ l r, s.buf = l ++ 0x0A :: r ∧ 0x0A ∉ l ∧ token = some (dropCR l) ∧
        s' = { s with buf := r }) ∨
      s'.eof = true ∨ (token = none ∧ s' = s) := by
  unfold scan at h
  cases hcut : cut s.buf with
  | some p =>
    obtain ⟨l, r⟩ := p
    rw [hcut] at h
    cases h
    obtain ⟨hbuf, hl⟩ := cut_eq_some hcut
    exact .inl ⟨l, r, hbuf, hl, rfl, rfl⟩
  | none =>
    rw [hcut] at h
    dsimp only at h
    split_ifs at h with heof <;> cases h
    · exact .inr (.inl heof)
    · exact .inr (.inl heof)
    · exact .inr (.inr ⟨rfl, rfl⟩)

theorem Scanner.eof_of_scan {max : ℕ} {s s' : Scanner} {token : Option (List UInt8)}
    (h : s.scan max = some (token, s')) : s'.eof = s.eof := by
  unfold scan at h
  cases hcut : cut s.buf with
  | some p =>
    rw [hcut] at h
    cases h
    rfl
  | none =>
    rw [hcut] at h
    dsimp only at h
    split_ifs at h <;> cases h <;> rfl

/-- `Scan` waits. -/
theorem Scanner.scan_eq_none {max : ℕ} {s : Scanner} (h : s.scan max = none) :
    0x0A ∉ s.buf ∧ s.eof = false := by
  unfold scan at h
  cases hcut : cut s.buf with
  | some p =>
    rw [hcut] at h
    cases h
  | none =>
    rw [hcut] at h
    dsimp only at h
    split_ifs at h with heof
    exact ⟨cut_eq_none.mp hcut, Bool.eq_false_iff.mpr heof⟩

/-! ### What has been handed out -/

/-- Of the stream, the tokens `toks` have been handed out and the bytes `rest` are left. -/
def Scanned (stream : List UInt8) (toks : List (List UInt8)) (rest : List UInt8) : Prop :=
  ∃ d, stream = d ++ rest ∧ ∀ x, lines (d ++ x) = toks ++ lines x

theorem scanned_start (stream : List UInt8) : Scanned stream [] stream :=
  ⟨[], rfl, fun _ => rfl⟩

namespace Scanned

variable {stream rest : List UInt8} {toks : List (List UInt8)}

theorem append (h : Scanned stream toks rest) (x : List UInt8) :
    Scanned (stream ++ x) toks (rest ++ x) := by
  obtain ⟨d, hd, hlines⟩ := h
  exact ⟨d, by rw [hd, List.append_assoc], hlines⟩

theorem scan {l r : List UInt8} (h : Scanned stream toks (l ++ 0x0A :: r)) (hl : 0x0A ∉ l) :
    Scanned stream (toks ++ [dropCR l]) r := by
  obtain ⟨d, hd, hlines⟩ := h
  refine ⟨d ++ l ++ [0x0A], by rw [hd]; simp, fun x => ?_⟩
  have hx : d ++ l ++ [0x0A] ++ x = d ++ (l ++ 0x0A :: x) := by simp
  rw [hx, hlines, lines_cons hl, List.append_assoc]
  rfl

theorem lines_append (h : Scanned stream toks rest) : lines stream = toks ++ lines rest := by
  obtain ⟨d, hd, hlines⟩ := h
  rw [hd, hlines]

theorem lines_eq (h : Scanned stream toks rest) (hrest : 0x0A ∉ rest) : lines stream = toks := by
  rw [h.lines_append, lines_of_notMem hrest, List.append_nil]

end Scanned

end Go.Bufio
