import SmsGate.Go.Utf8

/-!
# The `strings` package on byte lists

The functions of Go's `strings` package that work byte by byte are list functions; `trimSpace` and
`toUpper` work rune by rune.  `toUpper` is `strings.Map(unicode.ToUpper, s)`: its ASCII part is
Lean's `Char.toUpper`, and the rest of Unicode's simple case mapping is the parameter `CaseTable`,
with the two facts about it that matter to a reader of ASCII text.

* `trimSpace_encodeRunes`: on valid UTF-8, `trimSpace` drops runes;
* `trimSpace_toUpper`: trimming and upper-casing commute.
-/

namespace Go

open Utf8

/-- `unicode.IsSpace`. -/
def isSpace (r : Char) : Bool :=
  let n := r.toNat
  (9 ≤ n && n ≤ 13) || n == 0x20 || n == 0x85 || n == 0xA0 || n == 0x1680 ||
    (0x2000 ≤ n && n ≤ 0x200A) || n == 0x2028 || n == 0x2029 || n == 0x202F || n == 0x205F ||
    n == 0x3000

/-- Unicode's simple upper-case mapping, `unicode.ToUpper`. -/
structure CaseTable where
  /-- The mapping. -/
  upper : Char → Char
  /-- On ASCII it is the ASCII mapping. -/
  upper_ascii : ∀ r, r.toNat < 128 → upper r = r.toUpper
  /-- Only `ı` and `ſ` leave the rest of Unicode for ASCII, for `I` and `S`. -/
  upper_nonASCII : ∀ r, 128 ≤ r.toNat → (upper r).toNat < 128 → upper r = 'I' ∨ upper r = 'S'
  /-- White space has no case. -/
  isSpace_upper : ∀ r, isSpace (upper r) = isSpace r

/-- The table that knows the case of ASCII letters only. -/
def CaseTable.ascii : CaseTable where
  upper r := if r.toNat < 128 then r.toUpper else r
  upper_ascii _ h := if_pos h
  upper_nonASCII r h h' := by
    rw [if_neg (by omega)] at h'
    omega
  isSpace_upper r := by
    have hascii : ∀ n : Fin 128, isSpace (Char.ofNat n).toUpper = isSpace (Char.ofNat n) := by
      decide
    split_ifs with h
    · have hr := hascii ⟨r.toNat, h⟩
      rwa [Char.ofNat_toNat] at hr
    · rfl

namespace Strings

/-- `strings.HasPrefix`. -/
def hasPrefix (s p : List UInt8) : Bool := p.isPrefixOf s

/-- `strings.TrimPrefix`. -/
def trimPrefix (s p : List UInt8) : List UInt8 := if hasPrefix s p then s.drop p.length else s

/-- `strings.TrimRight` with a cutset of one ASCII byte. -/
def trimRight (s : List UInt8) (b : UInt8) : List UInt8 := s.rdropWhile (· == b)

/-- `strings.ReplaceAll(s, b, "")` for one ASCII byte `b`. -/
def removeAll (s : List UInt8) (b : UInt8) : List UInt8 := s.filter (· != b)

/-- `strings.TrimSpace`: leading and trailing white-space runes are cut, the bytes in between are
kept as they are. -/
def trimSpace (s : List UInt8) : List UInt8 :=
  (((pieces s).dropWhile fun p => isSpace p.1).rdropWhile fun p => isSpace p.1).flatMap Prod.snd

/-- `strings.ToUpper`. -/
def toUpper (t : CaseTable) (s : List UInt8) : List UInt8 := encodeRunes ((runes s).map t.upper)

/-- `strings.ToLower`, where `lower` is `unicode.ToLower`. -/
def toLower (lower : Char → Char) (s : List UInt8) : List UInt8 := encodeRunes ((runes s).map lower)

/-! ### Trimming and upper-casing -/

/-- The runes of a string that are left after trimming, with their bytes. -/
def core (s : List UInt8) : List (Char × List UInt8) :=
  ((pieces s).dropWhile fun p => isSpace p.1).rdropWhile fun p => isSpace p.1

theorem trimSpace_eq (s : List UInt8) : trimSpace s = (core s).flatMap Prod.snd := rfl

theorem core_subset {s : List UInt8} {p : Char × List UInt8} (h : p ∈ core s) : p ∈ pieces s :=
  (List.dropWhile_sublist _).subset ((List.rdropWhile_prefix _ _).subset h)

theorem rdropWhile_map {α β : Type} (f : α → β) (q : β → Bool) (l : List α) :
    (l.map f).rdropWhile q = (l.rdropWhile (q ∘ f)).map f := by
  rw [List.rdropWhile, ← List.map_reverse, List.dropWhile_map, ← List.map_reverse]
  rfl

/-- Trimming and upper-casing commute: the runes left are the upper-cased runes left. -/
theorem trimSpace_toUpper (t : CaseTable) (s : List UInt8) :
    trimSpace (toUpper t s) = encodeRunes ((core s).map fun p => t.upper p.1) := by
  have hspace : (fun p : Char × List UInt8 => isSpace p.1) ∘ ((fun r => (r, encodeRune r)) ∘
      t.upper) ∘ (Prod.fst : Char × List UInt8 → Char) = fun p => isSpace p.1 := by
    funext p
    exact t.isSpace_upper p.1
  rw [trimSpace, toUpper, pieces_encodeRunes, runes, List.map_map, List.map_map,
    List.dropWhile_map, rdropWhile_map, hspace]
  change ((core s).map _).flatMap Prod.snd = _
  rw [List.flatMap_map, encodeRunes, List.flatMap_map]
  rfl

/-- On valid UTF-8, trimming drops runes. -/
theorem trimSpace_encodeRunes (rs : List Char) :
    trimSpace (encodeRunes rs) = encodeRunes ((rs.dropWhile isSpace).rdropWhile isSpace) := by
  have hspace : (fun p : Char × List UInt8 => isSpace p.1) ∘ (fun r => (r, encodeRune r)) =
      isSpace := rfl
  rw [trimSpace, pieces_encodeRunes, List.dropWhile_map, rdropWhile_map, hspace, List.flatMap_map]
  rfl

theorem trimSpace_surrounded {left mid right : List Char} (hleft : ∀ r ∈ left, isSpace r)
    (hmid : ∀ r ∈ mid, isSpace r = false) (hright : ∀ r ∈ right, isSpace r) :
    trimSpace (encodeRunes (left ++ mid ++ right)) = encodeRunes mid := by
  rw [trimSpace_encodeRunes, List.append_assoc, List.dropWhile_append_of_pos hleft]
  cases mid with
  | nil =>
    have hnil : right.dropWhile isSpace = [] := List.dropWhile_eq_nil_iff.mpr hright
    rw [List.nil_append, hnil]
    rfl
  | cons r rs =>
    have hfront : (r :: rs ++ right).dropWhile isSpace = r :: rs ++ right :=
      List.dropWhile_cons_of_neg (by rw [hmid r List.mem_cons_self]; exact Bool.false_ne_true)
    have hback : (r :: rs ++ right).rdropWhile isSpace = r :: rs := by
      rw [List.rdropWhile, List.reverse_append, List.dropWhile_append_of_pos, ← List.rdropWhile,
        List.rdropWhile_eq_self_iff]
      · intro hne
        rw [hmid _ (List.getLast_mem hne)]
        exact Bool.false_ne_true
      · exact fun r hr => hright r (List.mem_reverse.mp hr)
    rw [hfront, hback]

end Strings

end Go
