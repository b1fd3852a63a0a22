import SmsGate.At.Equiv.Encode
import Mathlib.Data.List.Chain

/-!
# The GSM 7-bit text codec

`encodeGSM7Text` and `decodeGSM7Text` share one space of septets: the basic table, the codes of the
extension table, and the escape 0x1B between the two.  The basic table of the source has the escape
as a character, U+001B, so `IsGSM7` accepts it and the encoder writes it as it is.  The decoder
never returns it.  A text is read back exactly if it does not contain it
(`decodeGSM7Text_encodeGSM7Text_iff`).

Septets that are cut into pieces are read back piece by piece exactly if no piece ends in an escape
(`flatMap_gsm7Runes_iff`).
-/

namespace SmsGate.At

open Go Go.Utf8 Go.Outcome

variable {ε : Type}

/-- The rune at the place of the escape in the basic table. -/
def escapeRune : Char := '\x1b'

/-- A rune that has a septet, or two. -/
def Encodable (r : Char) : Prop := (runeToGSM7 r).isSome ∨ (extensionCode r).isSome

theorem isGSM7_iff (s : List UInt8) : isGSM7 s ↔ ∀ r ∈ runes s, Encodable r := by
  simp only [isGSM7, List.all_eq_true, Bool.or_eq_true, Encodable]

/-! ### The tables -/

theorem eq_escapeRune_of_code {r : Char} (h : runeToGSM7 r = some 0x1B) : r = escapeRune := by
  have hget := getElem?_of_runeToGSM7 h
  exact (Option.some_inj.mp hget).symm

theorem basicRune_of_runeToGSM7 {r : Char} {b : UInt8} (h : runeToGSM7 r = some b) :
    basicRune b = [r] := by
  rw [basicRune, getElem?_of_runeToGSM7 h, Option.toList_some]

/-- The codes of the extension table. -/
def IsExtension (x : UInt8) : Prop := ∃ e ∈ gsm7Extension, e.1 = x

theorem isExtension_of_extensionCode {r : Char} {x : UInt8} (h : extensionCode r = some x) :
    IsExtension x ∧ extensionRune x = r := by
  have hall : ∀ e ∈ gsm7Extension, extensionRune e.1 = e.2 := by decide
  obtain ⟨e, hfind, rfl⟩ := Option.map_eq_some_iff.mp h
  have he := List.mem_of_find?_eq_some hfind
  have hr := List.find?_some hfind
  rw [decide_eq_true_eq] at hr
  exact ⟨⟨e, he, rfl⟩, (hall e he).trans hr⟩

/-- A code of the extension table is not the escape, and has another rune in the basic table. -/
theorem IsExtension.ne {x : UInt8} (h : IsExtension x) :
    x ≠ 0x1B ∧ basicRune x ≠ [extensionRune x] := by
  have hall : ∀ e ∈ gsm7Extension, e.1 ≠ 0x1B ∧ basicRune e.1 ≠ [extensionRune e.1] := by
    decide
  obtain ⟨e, he, rfl⟩ := h
  exact hall e he

/-- The decoder never returns the escape. -/
theorem escapeRune_not_mem_gsm7Runes (c : List UInt8) : escapeRune ∉ gsm7Runes c := by
  have hbasic : ∀ c : UInt8, c ≠ 0x1B → escapeRune ∉ basicRune c := by decide +kernel
  have hextension : ∀ x : UInt8, extensionRune x ≠ escapeRune := by decide +kernel
  induction c using gsm7Runes.induct with
  | case1 => exact List.not_mem_nil
  | case2 => exact List.not_mem_nil
  | case3 c hc =>
    rw [gsm7Runes_cons_of_ne hc, gsm7Runes, List.append_nil]
    exact hbasic c hc
  | case4 x cs ih =>
    rw [gsm7Runes_escape]
    exact List.not_mem_cons_of_ne_of_not_mem (hextension x).symm ih
  | case5 c x cs hc ih =>
    rw [gsm7Runes_cons_of_ne hc]
    exact List.not_mem_append (hbasic c hc) ih

/-! ### Decoding undoes encoding -/

/-- The septets of a rune: one of the basic table, or an escape and a code of the extension
table. -/
theorem encodeGSM7Rune_cases {r : Char} (hr : Encodable r) (hescape : r ≠ escapeRune) :
    (∃ b, encodeGSM7Rune r = [b] ∧ b ≠ 0x1B ∧ basicRune b = [r]) ∨
      ∃ x, encodeGSM7Rune r = [0x1B, x] ∧ IsExtension x ∧ extensionRune x = r := by
  unfold encodeGSM7Rune
  cases hb : runeToGSM7 r with
  | some b =>
    refine .inl ⟨b, rfl, ?_, basicRune_of_runeToGSM7 hb⟩
    rintro rfl
    exact hescape (eq_escapeRune_of_code hb)
  | none =>
    cases hx : extensionCode r with
    | some x => exact .inr ⟨x, rfl, isExtension_of_extensionCode hx⟩
    | none =>
      rw [Encodable, hb, hx] at hr
      simp at hr

theorem gsm7Runes_encodeGSM7Rune_append {r : Char} (hr : Encodable r) (hescape : r ≠ escapeRune)
    (cs : List UInt8) : gsm7Runes (encodeGSM7Rune r ++ cs) = r :: gsm7Runes cs := by
  rcases encodeGSM7Rune_cases hr hescape with ⟨b, hcode, hb, hbasic⟩ | ⟨x, hcode, -, hextension⟩
  · rw [hcode, List.singleton_append, gsm7Runes_cons_of_ne hb, hbasic, List.singleton_append]
  · rw [hcode, List.cons_append, List.singleton_append, gsm7Runes_escape, hextension]

theorem gsm7Runes_flatMap_encodeGSM7Rune {rs : List Char} (hrs : ∀ r ∈ rs, Encodable r)
    (hescape : escapeRune ∉ rs) : gsm7Runes (rs.flatMap encodeGSM7Rune) = rs := by
  induction rs with
  | nil => rfl
  | cons r rs ih =>
    obtain ⟨hr, hrs⟩ := List.forall_mem_cons.mp hrs
    rw [List.mem_cons, not_or] at hescape
    rw [List.flatMap_cons, gsm7Runes_encodeGSM7Rune_append hr (Ne.symm hescape.1), ih hrs hescape.2]

/-- **The text codec is lossless exactly on the texts without the escape.**  Of what `IsGSM7`
accepts, that is everything but U+001B. -/
theorem decodeGSM7Text_encodeGSM7Text_iff {s : List UInt8} (hs : Valid s) (hgsm7 : isGSM7 s) :
    (decodeGSM7Text (encodeGSM7Text s) : Outcome ε (List UInt8)) = .ok s ↔
      escapeRune ∉ runes s := by
  rw [decodeGSM7Text_eq, Outcome.ok.injEq, encodeGSM7Text]
  constructor
  · intro heq
    rw [Valid] at hs
    rw [← hs] at heq
    have hrunes := encodeRunes_injective heq
    rw [runes_encodeRunes] at hrunes
    rw [← hrunes]
    exact escapeRune_not_mem_gsm7Runes _
  · intro hescape
    rw [gsm7Runes_flatMap_encodeGSM7Rune ((isGSM7_iff s).mp hgsm7) hescape]
    exact hs

/-- Characters of both tables. -/
theorem decodeGSM7Text_encodeGSM7Text_brackets :
    (decodeGSM7Text (encodeGSM7Text (lit "[Ä] 5€")) : Outcome DecodeErr (List UInt8)) =
      .ok (lit "[Ä] 5€") :=
  (decodeGSM7Text_encodeGSM7Text_iff (by decide) (by decide)).mpr
    (by decide)

/-- An escape and the letter `e` come back as the sign of the euro. -/
theorem not_decodeGSM7Text_encodeGSM7Text :
    Valid (lit "\x1be") ∧ isGSM7 (lit "\x1be") ∧
      (decodeGSM7Text (encodeGSM7Text (lit "\x1be")) : Outcome DecodeErr (List UInt8)) =
        .ok (lit "€") ∧ lit "€" ≠ lit "\x1be" := by
  decide

/-! ### Septets in pieces -/

/-- After an escape comes a code of the extension table. -/
def Escaped (c : List UInt8) : Prop := c.IsChain fun a x => a = 0x1B → IsExtension x

/-- Septets that a text may have. -/
structure TextSeptets (c : List UInt8) : Prop where
  septets : Septets c
  escaped : Escaped c
  getLast_ne : c.getLast? ≠ some 0x1B

/-- The septets in front of a piece that does not end in an escape leave nothing behind. -/
theorem gsm7Runes_append {a : List UInt8} (ha : Escaped a) (hlast : a.getLast? ≠ some 0x1B)
    (b : List UInt8) : gsm7Runes (a ++ b) = gsm7Runes a ++ gsm7Runes b := by
  induction a using gsm7Runes.induct with
  | case1 => rfl
  | case2 => exact absurd rfl hlast
  | case3 c hc =>
    rw [List.singleton_append, gsm7Runes_cons_of_ne hc, gsm7Runes_cons_of_ne hc, gsm7Runes,
      List.append_nil]
  | case4 x cs ih =>
    have hcs : Escaped cs := ha.infix (List.suffix_append [0x1B, x] cs).isInfix
    have hlast' : cs.getLast? ≠ some 0x1B := by
      cases cs with
      | nil => exact Option.some_ne_none _ ∘ Eq.symm
      | cons y cs => rwa [List.getLast?_cons_cons, List.getLast?_cons_cons] at hlast
    rw [List.cons_append, List.cons_append, gsm7Runes_escape, gsm7Runes_escape, ih hcs hlast',
      List.cons_append]
  | case5 c x cs hc ih =>
    have hcs : Escaped (x :: cs) := (List.isChain_cons_cons.mp ha).2
    rw [List.getLast?_cons_cons] at hlast
    rw [List.cons_append, gsm7Runes_cons_of_ne hc, ih hcs hlast, gsm7Runes_cons_of_ne hc,
      List.append_assoc]

/-- Every septet but an escape gives one rune, wherever the septets are cut. -/
theorem length_gsm7Runes {c : List UInt8} (hc : Septets c) (hescaped : Escaped c) :
    (gsm7Runes c).length = c.countP (· ≠ 0x1B) := by
  induction c using gsm7Runes.induct with
  | case1 => rfl
  | case2 => rfl
  | case3 c hne =>
    rw [gsm7Runes_cons_of_ne hne, gsm7Runes, List.append_nil,
      length_basicRune (hc c List.mem_cons_self), List.countP_cons_of_pos (by simpa using hne),
      List.countP_nil]
  | case4 x cs ih =>
    have hx : x ≠ 0x1B := ((List.isChain_cons_cons.mp hescaped).1 rfl).ne.1
    have hcs : Escaped cs := hescaped.infix (List.suffix_append [0x1B, x] cs).isInfix
    have hseptets : Septets cs := fun y hy =>
      hc y (List.mem_cons_of_mem _ (List.mem_cons_of_mem _ hy))
    rw [gsm7Runes_escape, List.length_cons, ih hseptets hcs, List.countP_cons_of_neg (by simp),
      List.countP_cons_of_pos (by simpa using hx)]
  | case5 c x cs hne ih =>
    have hcs : Escaped (x :: cs) := (List.isChain_cons_cons.mp hescaped).2
    have hcount : (c :: x :: cs).countP (· ≠ 0x1B) = (x :: cs).countP (· ≠ 0x1B) + 1 :=
      List.countP_cons_of_pos (by simpa using hne)
    rw [gsm7Runes_cons_of_ne hne, List.length_append, length_basicRune (hc c List.mem_cons_self),
      ih (fun y hy => hc y (List.mem_cons_of_mem _ hy)) hcs, hcount, Nat.add_comm]

theorem length_flatMap_gsm7Runes {ps : List (List UInt8)} (hps : Septets ps.flatten)
    (hescaped : Escaped ps.flatten) :
    (ps.flatMap gsm7Runes).length = ps.flatten.countP (· ≠ 0x1B) := by
  induction ps with
  | nil => rfl
  | cons p ps ih =>
    rw [List.flatten_cons] at *
    obtain ⟨hp, hrest, -⟩ := List.isChain_append.mp hescaped
    rw [List.flatMap_cons, List.length_append, List.countP_append,
      length_gsm7Runes (fun x hx => hps x (List.mem_append_left _ hx)) hp,
      ih (fun x hx => hps x (List.mem_append_right _ hx)) hrest]

theorem flatMap_gsm7Runes_of_getLast {ps : List (List UInt8)} (hescaped : Escaped ps.flatten)
    (hlast : ∀ p ∈ ps, p.getLast? ≠ some 0x1B) :
    ps.flatMap gsm7Runes = gsm7Runes ps.flatten := by
  induction ps with
  | nil => rfl
  | cons p ps ih =>
    rw [List.flatten_cons] at *
    obtain ⟨hp, hrest, -⟩ := List.isChain_append.mp hescaped
    obtain ⟨hlastp, hlast⟩ := List.forall_mem_cons.mp hlast
    rw [List.flatMap_cons, gsm7Runes_append hp hlastp, ih hrest hlast]

/-- The first septet of all pieces together is read in the basic table, unless it is an escape. -/
theorem exists_flatMap_gsm7Runes {ps : List (List UInt8)} {x : UInt8} {rest : List UInt8}
    (hps : ps.flatten = x :: rest) (hx : x ≠ 0x1B) :
    ∃ rs, ps.flatMap gsm7Runes = basicRune x ++ rs := by
  induction ps with
  | nil => cases hps
  | cons p ps ih =>
    cases p with
    | nil => exact ih hps
    | cons y p =>
      rw [List.flatten_cons, List.cons_append] at hps
      obtain ⟨rfl, -⟩ := List.cons.inj hps
      rw [List.flatMap_cons, gsm7Runes_cons_of_ne hx, List.append_assoc]
      exact ⟨_, rfl⟩

/-- A cut behind an escape changes a character: the code of the extension table is read in the basic
one. -/
theorem flatMap_gsm7Runes_cut {ps₁ ps₂ : List (List UInt8)} {a rest : List UInt8} {x : UInt8}
    (h₁ : ps₁.flatten = a ++ [0x1B]) (h₂ : ps₂.flatten = x :: rest)
    (hseptets : Septets (a ++ 0x1B :: x :: rest)) (hescaped : Escaped (a ++ 0x1B :: x :: rest)) :
    (ps₁ ++ ps₂).flatMap gsm7Runes ≠ gsm7Runes (a ++ 0x1B :: x :: rest) := by
  obtain ⟨ha, hback, hcut⟩ := List.isChain_append.mp hescaped
  have hx : IsExtension x := (List.isChain_cons_cons.mp hback).1 rfl
  have hlast : a.getLast? ≠ some 0x1B := fun h => (hcut _ h _ rfl rfl).ne.1 rfl
  have haSeptets : Septets a := fun y hy => hseptets y (List.mem_append_left _ hy)
  -- in both readings the same number of runes comes before that of `x`
  have hlength : (ps₁.flatMap gsm7Runes).length = (gsm7Runes a).length := by
    have h₁Septets : Septets ps₁.flatten := by
      intro y hy
      rw [h₁, List.mem_append, List.mem_singleton] at hy
      rcases hy with hy | rfl
      · exact haSeptets y hy
      · decide
    have h₁Escaped : Escaped ps₁.flatten := by
      rw [h₁]
      exact hescaped.infix ⟨[], x :: rest, by simp⟩
    rw [length_flatMap_gsm7Runes h₁Septets h₁Escaped, length_gsm7Runes haSeptets ha, h₁,
      List.countP_append, List.countP_singleton]
    rfl
  intro heq
  obtain ⟨rs, hrs⟩ := exists_flatMap_gsm7Runes h₂ hx.ne.1
  rw [gsm7Runes_append ha hlast, gsm7Runes_escape, List.flatMap_append, hrs] at heq
  have htail := (List.append_inj heq hlength).2
  have hbasic := length_basicRune (hseptets x (by simp))
  rw [← List.singleton_append] at htail
  exact hx.ne.2 (List.append_inj htail hbasic).1

/-- **Septets are read back piece by piece exactly if no piece ends in an escape.** -/
theorem flatMap_gsm7Runes_iff {ps : List (List UInt8)} (hc : TextSeptets ps.flatten) :
    ps.flatMap gsm7Runes = gsm7Runes ps.flatten ↔ ∀ p ∈ ps, p.getLast? ≠ some 0x1B := by
  refine ⟨?_, flatMap_gsm7Runes_of_getLast hc.escaped⟩
  intro heq p hp hlast
  obtain ⟨ps₁, ps₂, rfl⟩ := List.append_of_mem hp
  obtain ⟨p', rfl⟩ := List.getLast?_eq_some_iff.mp hlast
  have hsplit : ps₁ ++ (p' ++ [0x1B]) :: ps₂ = (ps₁ ++ [p' ++ [0x1B]]) ++ ps₂ := by simp
  have h₁ : (ps₁ ++ [p' ++ [0x1B]]).flatten = (ps₁.flatten ++ p') ++ [0x1B] := by simp
  rw [hsplit, List.flatten_append, h₁] at hc
  rw [hsplit, List.flatten_append, h₁] at heq
  cases h₂ : ps₂.flatten with
  | nil =>
    -- a text does not end in an escape
    refine hc.getLast_ne ?_
    rw [h₂, List.append_nil, List.getLast?_concat]
  | cons x rest =>
    have hback : ps₁.flatten ++ p' ++ [0x1B] ++ x :: rest =
        ps₁.flatten ++ p' ++ 0x1B :: x :: rest := by simp
    rw [h₂, hback] at hc heq
    exact flatMap_gsm7Runes_cut h₁ h₂ hc.septets hc.escaped heq

/-- The septets of a text. -/
theorem textSeptets_flatMap {rs : List Char} (hrs : ∀ r ∈ rs, Encodable r)
    (hescape : escapeRune ∉ rs) : TextSeptets (rs.flatMap encodeGSM7Rune) := by
  induction rs with
  | nil => exact ⟨nofun, .nil, nofun⟩
  | cons r rs ih =>
    obtain ⟨hr, hrs⟩ := List.forall_mem_cons.mp hrs
    rw [List.mem_cons, not_or] at hescape
    obtain ⟨hseptets, hescaped, hlast⟩ := ih hrs hescape.2
    -- whatever its length, the code of `r` does not end in an escape
    have hcode : Escaped (encodeGSM7Rune r) ∧ ∃ y ≠ 0x1B, (encodeGSM7Rune r).getLast? = some y := by
      rcases encodeGSM7Rune_cases hr (Ne.symm hescape.1) with ⟨b, hcode, hb, -⟩ | ⟨x, hcode, hx, -⟩
      · rw [hcode]
        exact ⟨List.isChain_singleton b, b, hb, rfl⟩
      · rw [hcode]
        exact ⟨List.isChain_pair.mpr fun _ => hx, x, hx.ne.1, rfl⟩
    obtain ⟨hcodeEscaped, y, hy, hcodeLast⟩ := hcode
    rw [List.flatMap_cons]
    refine ⟨?_, ?_, ?_⟩
    · intro x hx
      rcases List.mem_append.mp hx with hx | hx
      · exact septets_encodeGSM7Rune r x hx
      · exact hseptets x hx
    · refine List.isChain_append.mpr ⟨hcodeEscaped, hescaped, ?_⟩
      intro a ha x _ h
      rw [hcodeLast, Option.mem_some_iff] at ha
      exact absurd (ha.trans h) hy
    · rw [List.getLast?_append, hcodeLast]
      cases h : (rs.flatMap encodeGSM7Rune).getLast? with
      | none => exact fun heq => hy (Option.some_inj.mp heq)
      | some z =>
        rw [h] at hlast
        exact hlast

end SmsGate.At
