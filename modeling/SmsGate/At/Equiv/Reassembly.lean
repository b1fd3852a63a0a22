import SmsGate.At.Equiv.Encode
import Mathlib.Data.List.Dedup

/-!
# Putting long messages together again

A receiver collects the parts that have one concatenation reference and one total, and orders them
by part number (`reassemble`).  Two messages come out of that as they went in, in whatever order
their parts arrive, exactly when their keys differ.

`EncodePDU` gives every message the reference 0x42, so only the number of parts is left to tell two
messages to one destination apart (`reassemble_perm_iff`): two messages of two parts each come out
as one of four (`not_reassemble_same_length`).
-/

namespace SmsGate.At

open Go Go.Bits Go.Utf8 Go.Outcome

/-! ### Groups -/

section

variable {α κ : Type} [DecidableEq κ] {key : α → Option κ} {num : α → ℕ}
  {xs ys received : List α} {a b : κ}

/-- The values that have a key, grouped by it, and each group in the order of its numbers. -/
def assemble (key : α → Option κ) (num : α → ℕ) (xs : List α) : List (List α) :=
  (xs.filterMap key).dedup.map fun k =>
    (xs.filter fun x => key x = some k).mergeSort fun x y => num x ≤ num y

/-- What is numbered in order comes out of sorting as it was. -/
theorem mergeSort_eq_of_perm (hperm : received.Perm xs)
    (hsorted : xs.Pairwise fun x y => num x < num y) :
    (received.mergeSort fun x y => num x ≤ num y) = xs := by
  have hle : (received.mergeSort fun x y => num x ≤ num y).Pairwise
      fun x y => decide (num x ≤ num y) :=
    List.pairwise_mergeSort (fun x y z hxy hyz => by simp only [decide_eq_true_eq] at *; omega)
      (fun x y => by simp only [Bool.or_eq_true, decide_eq_true_eq]; omega) received
  have hxs : xs.Pairwise fun x y => decide (num x ≤ num y) :=
    hsorted.imp fun hlt => decide_eq_true hlt.le
  -- two values with one number are the same
  have hinj : ∀ x ∈ xs, ∀ y ∈ xs, num x = num y → x = y := by
    have hnodup : (xs.map num).Nodup := List.pairwise_map.mpr (hsorted.imp Nat.ne_of_lt)
    exact fun x hx y hy heq => List.inj_on_of_nodup_map hnodup hx hy heq
  have hmem : (received.mergeSort fun x y => num x ≤ num y).Perm xs :=
    (List.mergeSort_perm _ _).trans hperm
  refine List.Perm.eq_of_pairwise (fun x y hx hy hxy hyx => ?_) hle hxs hmem
  refine hinj x (hmem.mem_iff.mp hx) y hy (Nat.le_antisymm ?_ ?_)
  · exact of_decide_eq_true hxy
  · exact of_decide_eq_true hyx

theorem filter_perm (hperm : received.Perm (xs ++ ys)) (hxs : ∀ x ∈ xs, key x = some a)
    (hys : ∀ y ∈ ys, key y ≠ some a) : (received.filter fun x => key x = some a).Perm xs := by
  have hleft : (xs.filter fun x => key x = some a) = xs :=
    List.filter_eq_self.mpr fun x hx => decide_eq_true (hxs x hx)
  have hright : (ys.filter fun x => key x = some a) = [] :=
    List.filter_eq_nil_iff.mpr fun y hy => by rw [decide_eq_true_eq]; exact hys y hy
  have h := hperm.filter fun x => key x = some a
  rwa [List.filter_append, hleft, hright, List.append_nil] at h

omit [DecidableEq κ] in
theorem mem_filterMap_key (hperm : received.Perm (xs ++ ys)) (hxs : ∀ x ∈ xs, key x = some a)
    (hys : ∀ y ∈ ys, key y = some b) (hx : xs ≠ []) (hy : ys ≠ []) (k : κ) :
    k ∈ received.filterMap key ↔ k = a ∨ k = b := by
  simp only [List.mem_filterMap, hperm.mem_iff, List.mem_append]
  constructor
  · rintro ⟨x, hmem | hmem, hk⟩
    · rw [hxs x hmem, Option.some_inj] at hk
      exact .inl hk.symm
    · rw [hys x hmem, Option.some_inj] at hk
      exact .inr hk.symm
  · obtain ⟨x, hmem⟩ := List.exists_mem_of_ne_nil xs hx
    obtain ⟨y, hmem'⟩ := List.exists_mem_of_ne_nil ys hy
    rintro (rfl | rfl)
    · exact ⟨x, .inl hmem, hxs x hmem⟩
    · exact ⟨y, .inr hmem', hys y hmem'⟩

/-- Two groups with one key come out as one. -/
theorem length_assemble_of_eq (hperm : received.Perm (xs ++ ys)) (hxs : ∀ x ∈ xs, key x = some a)
    (hys : ∀ y ∈ ys, key y = some a) (hx : xs ≠ []) (hy : ys ≠ []) :
    (assemble key num received).length = 1 := by
  have hkeys : (received.filterMap key).dedup.Perm [a] := by
    refine (List.perm_ext_iff_of_nodup (List.nodup_dedup _) (List.nodup_singleton a)).mpr ?_
    intro k
    rw [List.mem_dedup, mem_filterMap_key hperm hxs hys hx hy, or_self, List.mem_singleton]
  rw [assemble, List.length_map, hkeys.length_eq, List.length_singleton]

/-- **Two groups come out as they went in exactly when their keys differ.** -/
theorem assemble_perm_iff (hperm : received.Perm (xs ++ ys)) (hxs : ∀ x ∈ xs, key x = some a)
    (hys : ∀ y ∈ ys, key y = some b) (hx : xs ≠ []) (hy : ys ≠ [])
    (hxsorted : xs.Pairwise fun x y => num x < num y)
    (hysorted : ys.Pairwise fun x y => num x < num y) :
    (assemble key num received).Perm [xs, ys] ↔ a ≠ b := by
  constructor
  · rintro h rfl
    have hlen := h.length_eq
    rw [length_assemble_of_eq hperm hxs hys hx hy] at hlen
    cases hlen
  · intro hne
    have hkeys : (received.filterMap key).dedup.Perm [a, b] := by
      refine (List.perm_ext_iff_of_nodup (List.nodup_dedup _) (by simpa using hne)).mpr ?_
      intro k
      rw [List.mem_dedup, mem_filterMap_key hperm hxs hys hx hy]
      simp
    have hfirst := filter_perm hperm hxs fun y hy heq => hne (by
      rw [hys y hy, Option.some_inj] at heq
      exact heq.symm)
    have hsecond := filter_perm (hperm.trans List.perm_append_comm) hys fun x hx heq => hne (by
      rw [hxs x hx, Option.some_inj] at heq
      exact heq)
    refine (hkeys.map _).trans (.of_eq ?_)
    rw [List.map_cons, List.map_singleton, mergeSort_eq_of_perm hfirst hxsorted,
      mergeSort_eq_of_perm hsecond hysorted]

end

/-! ### The receiver -/

/-- The reference, the total and the part number of the concatenation header. -/
def Submit.concat (m : Submit) : Option (UInt8 × UInt8 × UInt8) :=
  if Udhi m.pduType then
    match m.ud with
    | 0x05 :: 0x00 :: 0x03 :: ref :: total :: partNum :: _ => some (ref, total, partNum)
    | _ => none
  else none

/-- What the parts of one message have in common: the reference and the total. -/
def Submit.group (m : Submit) : Option (UInt8 × UInt8) := m.concat.map fun c => (c.1, c.2.1)

def Submit.partNum (m : Submit) : ℕ := (m.concat.map fun c => c.2.2.toNat).getD 0

/-- The messages that a receiver makes of the parts that it has, each with its parts in order. -/
def reassemble (received : List Submit) : List (List Submit) :=
  assemble Submit.group Submit.partNum received

/-- The text of a part, as septets or as UTF-16. -/
def Submit.content (m : Submit) : Outcome DecodeErr (List UInt8) :=
  if dcsEncoding m.dcs = .gsm7 then m.septets
  else .ok (m.ud.drop (if Udhi m.pduType then (m.ud.getD 0 0).toNat + 1 else 0))

/-- The text of a message. -/
def messageText (parts : List Submit) : Outcome DecodeErr (List UInt8) := do
  return (← parts.mapM Submit.content).flatten

/-- What `EncodePDU` encodes of a body: its septets, or its UTF-16. -/
def encodedText (body encoding : List UInt8) : List UInt8 :=
  if encoding = lit "GSM7" ∨ encoding = [] ∧ isGSM7 body then encodeGSM7Text body
  else encodeUCS2 body

/-- The number of PDUs for `n` characters, of which one PDU holds `single` and a part `concat`. -/
def pduCount (single concat n : ℕ) : ℕ := if n ≤ single then 1 else numParts concat n

/-- The number of parts of a body: by its septets in GSM7, with the escapes, and by its runes in
UCS2. -/
def partCount (body encoding : List UInt8) : ℕ :=
  if encoding = lit "GSM7" ∨ encoding = [] ∧ isGSM7 body then
    pduCount maxGSM7Chars maxGSM7ConcatChars (encodeGSM7Text body).length
  else pduCount maxUCS2Chars maxUCS2ConcatChars (runes body).length

/-! ### The parts of one message -/

/-- The parts of a message, as the receiver reads them. -/
structure PartsOf (pdus : List EncodedPDU) (text : List UInt8) (ms : List Submit) : Prop where
  reads : List.Forall₂ EncodedPDU.Reads pdus ms
  text_eq : messageText ms = .ok text
  group_eq : ∀ m ∈ ms, m.group = some (0x42, UInt8.ofNat pdus.length)
  sorted : ms.Pairwise fun m m' => m.partNum < m'.partNum

theorem PartsOf.ne_nil {pdus : List EncodedPDU} {text : List UInt8} {ms : List Submit}
    (h : PartsOf pdus text ms) (htwo : 2 ≤ pdus.length) : ms ≠ [] := by
  rintro rfl
  rw [List.forall₂_nil_right_iff.mp h.reads] at htwo
  cases htwo

/-- A split, whatever its units: `submit` is what a PDU is read as, and `code` the text of a
unit. -/
theorem partsOf_splitParts {α : Type} {single concat : ℕ} (hconcat : 0 < concat)
    {build : List α → UInt8 → UInt8 → UInt8 → EncodedPDU}
    (submit : List α → UInt8 → UInt8 → UInt8 → Submit) (code : α → List UInt8) (xs : List α)
    (hreads : ∀ c ref total partNum, (build c ref total partNum).Reads
      (submit c ref total partNum))
    (hheader : ∀ c ref total partNum, 0 < total →
      (submit c ref total partNum).concat = some (ref, total, partNum))
    (hcontent : ∀ i ref total partNum, 0 < total →
      (submit (chunk concat xs i) ref total partNum).content =
        .ok ((chunk concat xs i).flatMap code))
    (htwo : 2 ≤ (splitParts single concat build xs).length)
    (hmax : (splitParts single concat build xs).length ≤ 255) :
    ∃ ms, PartsOf (splitParts single concat build xs) (xs.flatMap code) ms := by
  rw [splitParts_eq] at *
  split_ifs at * with hsingle
  · simp at htwo
  · have hflat := flatMap_chunk_numParts hconcat xs
    rw [List.length_map, List.length_range] at htwo hmax
    generalize numParts concat xs.length = n at *
    have htotal : 0 < UInt8.ofNat n := by
      rw [UInt8.lt_iff_toNat_lt, toNat_ofNat_of_lt (by omega)]
      exact Nat.lt_of_lt_of_le Nat.zero_lt_two htwo
    have hpart : ∀ i,
        (submit (chunk concat xs i) 0x42 (UInt8.ofNat n) (UInt8.ofNat (i + 1))).concat =
        some (0x42, UInt8.ofNat n, UInt8.ofNat (i + 1)) := fun i => hheader _ _ _ _ htotal
    refine ⟨(List.range n).map fun i =>
      submit (chunk concat xs i) 0x42 (UInt8.ofNat n) (UInt8.ofNat (i + 1)), ?_, ?_, ?_, ?_⟩
    · rw [List.forall₂_map_left_iff, List.forall₂_map_right_iff, List.forall₂_same]
      exact fun i _ => hreads _ _ _ _
    · have hparts : (List.range n).mapM (fun i => (submit (chunk concat xs i) 0x42 (UInt8.ofNat n)
          (UInt8.ofNat (i + 1))).content) =
            .ok ((List.range n).map fun i => (chunk concat xs i).flatMap code) :=
        mapM_eq_ok fun i _ => hcontent i _ _ _ htotal
      rw [messageText, List.mapM_map]
      simp only [Function.comp_def]
      rw [hparts, ok_bind, ← List.flatMap_def, ← List.flatMap_assoc, hflat]
      rfl
    · rw [List.forall_mem_map, List.length_map, List.length_range]
      intro i _
      rw [Submit.group, hpart, Option.map_some]
    · rw [List.pairwise_map]
      refine (List.pairwise_lt_range (n := n)).imp_of_mem fun {i j} hi hj hij => ?_
      rw [List.mem_range] at hi hj
      simp only [Submit.partNum, hpart, Option.map_some, Option.getD_some]
      rw [toNat_ofNat_of_lt (by omega), toNat_ofNat_of_lt (by omega)]
      omega

/-- The user data of a part. -/
theorem ud_gsm7Submit_part (dest c : List UInt8) (ref : UInt8) {total : UInt8} (partNum : UInt8)
    (htotal : 0 < total) : (gsm7Submit dest c ref total partNum).ud =
      [0x05, 0x00, 0x03, ref, total, partNum] ++ repackWithFill c 1 :=
  if_pos htotal

theorem ud_ucs2Submit_part (dest : List UInt8) (rs : List Char) (ref : UInt8) {total : UInt8}
    (partNum : UInt8) (htotal : 0 < total) : (ucs2Submit dest rs ref total partNum).ud =
      [0x05, 0x00, 0x03, ref, total, partNum] ++ encodeUCS2 (encodeRunes rs) := by
  change (if 0 < total then _ else _) ++ _ = _
  rw [if_pos htotal]

theorem udhi_ucs2Submit_part (dest : List UInt8) (rs : List Char) (ref : UInt8) {total : UInt8}
    (partNum : UInt8) (htotal : 0 < total) :
    Udhi (ucs2Submit dest rs ref total partNum).pduType := by
  rw [ucs2Submit, udhi_builtSubmit]
  exact decide_eq_true htotal

/-- The octets of one rune in UTF-16. -/
def ucs2Rune (r : Char) : List UInt8 :=
  (Utf16.encodeRune16 r).flatMap fun u => [UInt8.ofNat (u.toNat / 256), UInt8.ofNat u.toNat]

/-- UTF-16 is encoded rune by rune. -/
theorem encodeUCS2_eq_flatMap (s : List UInt8) : encodeUCS2 s = (runes s).flatMap ucs2Rune :=
  List.flatMap_assoc

/-- The two ways in which `EncodePDU` succeeds. -/
theorem encodePDU_cases {dest body encoding : List UInt8} {pdus : List EncodedPDU}
    (henc : encodePDU dest body encoding = .ok pdus) :
    ((encoding = lit "GSM7" ∨ encoding = [] ∧ isGSM7 body) ∧ pdus = encodeGSM7PDUs dest body) ∨
      (¬ (encoding = lit "GSM7" ∨ encoding = [] ∧ isGSM7 body) ∧
        pdus = encodeUCS2PDUs dest body) := by
  unfold encodePDU at henc
  dsimp only at henc
  by_cases hauto : encoding = []
  · rw [if_pos hauto] at henc
    by_cases hgsm7 : isGSM7 body
    · rw [if_pos hgsm7, if_pos rfl] at henc
      exact .inl ⟨.inr ⟨hauto, hgsm7⟩, (Except.ok.inj henc).symm⟩
    · rw [if_neg hgsm7, if_neg (by decide), if_pos rfl] at henc
      refine .inr ⟨?_, (Except.ok.inj henc).symm⟩
      rintro (rfl | ⟨-, hbody⟩)
      · cases hauto
      · exact hgsm7 hbody
  · rw [if_neg hauto] at henc
    split_ifs at henc with hname hucs2
    · exact .inl ⟨.inl hname, (Except.ok.inj henc).symm⟩
    · refine .inr ⟨?_, (Except.ok.inj henc).symm⟩
      rintro (heq | ⟨heq, -⟩)
      · exact hname heq
      · exact hauto heq

theorem length_splitParts {α : Type} (single concat : ℕ)
    (build : List α → UInt8 → UInt8 → UInt8 → EncodedPDU) (xs : List α) :
    (splitParts single concat build xs).length = pduCount single concat xs.length := by
  rw [splitParts_eq, pduCount]
  split_ifs
  · rfl
  · rw [List.length_map, List.length_range]

/-- How many PDUs `EncodePDU` makes can be told from the body. -/
theorem length_encodePDU {dest body encoding : List UInt8} {pdus : List EncodedPDU}
    (henc : encodePDU dest body encoding = .ok pdus) : pdus.length = partCount body encoding := by
  rcases encodePDU_cases henc with ⟨hgsm7, rfl⟩ | ⟨hucs2, rfl⟩
  · rw [partCount, if_pos hgsm7]
    exact length_splitParts _ _ _ _
  · rw [partCount, if_neg hucs2]
    exact length_splitParts _ _ _ _

section

variable {dest : List UInt8} (hdest : (encodeBCDAddress dest).1 < 256)

include hdest

theorem partsOf_encodeGSM7PDUs {body : List UInt8} (htwo : 2 ≤ (encodeGSM7PDUs dest body).length)
    (hmax : (encodeGSM7PDUs dest body).length ≤ 255) :
    ∃ ms, PartsOf (encodeGSM7PDUs dest body) (encodeGSM7Text body) ms := by
  rw [← List.flatMap_singleton' (encodeGSM7Text body)]
  refine partsOf_splitParts (by decide) (gsm7Submit dest) (fun x => [x]) _
    (fun c ref total partNum => reads_buildGSM7PDU hdest c ref total partNum) ?_ ?_ htwo hmax
  · intro c ref total partNum htotal
    rw [Submit.concat, if_pos ((udhi_gsm7Submit dest c ref total partNum).mpr htotal),
      ud_gsm7Submit_part dest c ref partNum htotal]
    rfl
  · intro i ref total partNum htotal
    have hdcs : dcsEncoding (gsm7Submit dest (chunk maxGSM7ConcatChars (encodeGSM7Text body) i) ref
        total partNum).dcs = .gsm7 := show dcsEncoding 0x00 = .gsm7 by decide
    rw [List.flatMap_singleton', Submit.content, if_pos hdcs]
    exact (septets_gsm7Submit_part dest ((septets_encodeGSM7Text body).chunk _ i)
      (length_chunk_le _ _ i) ref partNum htotal).2

theorem partsOf_encodeUCS2PDUs {body : List UInt8} (htwo : 2 ≤ (encodeUCS2PDUs dest body).length)
    (hmax : (encodeUCS2PDUs dest body).length ≤ 255) :
    ∃ ms, PartsOf (encodeUCS2PDUs dest body) (encodeUCS2 body) ms := by
  rw [encodeUCS2_eq_flatMap]
  refine partsOf_splitParts (by decide) (ucs2Submit dest) ucs2Rune (runes body)
    (fun c ref total partNum => reads_buildUCS2PDU hdest c ref total partNum) ?_ ?_ htwo hmax
  · intro c ref total partNum htotal
    rw [Submit.concat, if_pos (udhi_ucs2Submit_part dest c ref partNum htotal),
      ud_ucs2Submit_part dest c ref partNum htotal]
    rfl
  · intro i ref total partNum htotal
    have hdcs : dcsEncoding (ucs2Submit dest (chunk maxUCS2ConcatChars (runes body) i) ref total
        partNum).dcs ≠ .gsm7 := show dcsEncoding 0x08 ≠ .gsm7 by decide
    -- the header says that five octets follow its first
    rw [Submit.content, if_neg hdcs, if_pos (udhi_ucs2Submit_part dest _ ref partNum htotal),
      ud_ucs2Submit_part dest _ ref partNum htotal, encodeUCS2_eq_flatMap, runes_encodeRunes]
    rfl

/-- The parts of what `EncodePDU` makes of a body. -/
theorem partsOf_encodePDU {body encoding : List UInt8} {pdus : List EncodedPDU}
    (henc : encodePDU dest body encoding = .ok pdus) (htwo : 2 ≤ pdus.length)
    (hmax : pdus.length ≤ 255) : ∃ ms, PartsOf pdus (encodedText body encoding) ms := by
  rcases encodePDU_cases henc with ⟨hgsm7, rfl⟩ | ⟨hucs2, rfl⟩
  · rw [encodedText, if_pos hgsm7]
    exact partsOf_encodeGSM7PDUs hdest htwo hmax
  · rw [encodedText, if_neg hucs2]
    exact partsOf_encodeUCS2PDUs hdest htwo hmax

end

/-- **Two long messages come out as they went in exactly when their numbers of parts differ.**  For
two bodies that `EncodePDU` splits for one destination, each in at most 255 parts, and every order
in which all their parts may arrive: the receiver makes of them the two messages, each with its
parts in order and so with its text, exactly when one body needs more parts than the other. -/
theorem reassemble_perm_iff {dest body₁ body₂ encoding₁ encoding₂ : List UInt8}
    {pdus₁ pdus₂ : List EncodedPDU} (hdest : (encodeBCDAddress dest).1 < 256)
    (henc₁ : encodePDU dest body₁ encoding₁ = .ok pdus₁)
    (henc₂ : encodePDU dest body₂ encoding₂ = .ok pdus₂)
    (htwo₁ : 2 ≤ partCount body₁ encoding₁) (hmax₁ : partCount body₁ encoding₁ ≤ 255)
    (htwo₂ : 2 ≤ partCount body₂ encoding₂) (hmax₂ : partCount body₂ encoding₂ ≤ 255) :
    ∃ ms₁ ms₂, List.Forall₂ EncodedPDU.Reads pdus₁ ms₁ ∧ List.Forall₂ EncodedPDU.Reads pdus₂ ms₂ ∧
      messageText ms₁ = .ok (encodedText body₁ encoding₁) ∧
      messageText ms₂ = .ok (encodedText body₂ encoding₂) ∧
      ∀ received, received.Perm (ms₁ ++ ms₂) →
        ((reassemble received).Perm [ms₁, ms₂] ↔
          partCount body₁ encoding₁ ≠ partCount body₂ encoding₂) := by
  rw [← length_encodePDU henc₁] at htwo₁ hmax₁ ⊢
  rw [← length_encodePDU henc₂] at htwo₂ hmax₂ ⊢
  obtain ⟨ms₁, hms₁⟩ := partsOf_encodePDU hdest henc₁ htwo₁ hmax₁
  obtain ⟨ms₂, hms₂⟩ := partsOf_encodePDU hdest henc₂ htwo₂ hmax₂
  refine ⟨ms₁, ms₂, hms₁.reads, hms₂.reads, hms₁.text_eq, hms₂.text_eq, fun received hperm => ?_⟩
  rw [reassemble, assemble_perm_iff hperm hms₁.group_eq hms₂.group_eq (hms₁.ne_nil htwo₁)
    (hms₂.ne_nil htwo₂) hms₁.sorted hms₂.sorted]
  -- one octet is enough to tell the totals apart
  refine not_congr ?_
  rw [Prod.mk.injEq, eq_self, true_and]
  constructor
  · intro heq
    have htoNat := congrArg UInt8.toNat heq
    rwa [toNat_ofNat_of_lt (by omega), toNat_ofNat_of_lt (by omega)] at htoNat
  · exact fun heq => by rw [heq]

/-! ### Two messages of one length -/

/-- The body of `n` copies of a rune. -/
def repeated (r : Char) (n : ℕ) : List UInt8 := encodeRunes (List.replicate n r)

/-- In UCS2 the parts are counted by runes. -/
theorem partCount_repeated (r : Char) (n : ℕ) :
    partCount (repeated r n) (lit "UCS2") = pduCount maxUCS2Chars maxUCS2ConcatChars n := by
  have hucs2 : ¬ (lit "UCS2" = lit "GSM7" ∨ lit "UCS2" = [] ∧ isGSM7 (repeated r n)) := by
    rintro (hname | ⟨hname, -⟩)
    · exact absurd hname (by decide)
    · exact absurd hname (by decide)
  rw [partCount, if_neg hucs2, repeated, runes_encodeRunes, List.length_replicate]

/-- A message of two parts and one of three, with the parts of the second arriving first. -/
theorem reassemble_perm_iff_two_three : ∃ pdus₁ pdus₂ ms₁ ms₂,
    encodePDU (lit "+4915112345678") (repeated 'ж' 71) (lit "UCS2") = .ok pdus₁ ∧
    encodePDU (lit "+4915112345678") (repeated 'я' 135) (lit "UCS2") = .ok pdus₂ ∧
    List.Forall₂ EncodedPDU.Reads pdus₁ ms₁ ∧ List.Forall₂ EncodedPDU.Reads pdus₂ ms₂ ∧
      (reassemble (ms₂ ++ ms₁)).Perm [ms₁, ms₂] := by
  have htwo : partCount (repeated 'ж' 71) (lit "UCS2") = 2 := partCount_repeated 'ж' 71
  have hthree : partCount (repeated 'я' 135) (lit "UCS2") = 3 := partCount_repeated 'я' 135
  obtain ⟨ms₁, ms₂, hreads₁, hreads₂, -, -, hiff⟩ :=
    reassemble_perm_iff (show (encodeBCDAddress (lit "+4915112345678")).1 < 256 by decide)
      (show encodePDU _ (repeated 'ж' 71) (lit "UCS2") = .ok _ from rfl)
      (show encodePDU _ (repeated 'я' 135) (lit "UCS2") = .ok _ from rfl)
      (by omega) (by omega) (by omega) (by omega)
  refine ⟨_, _, ms₁, ms₂, rfl, rfl, hreads₁, hreads₂, ?_⟩
  exact (hiff _ List.perm_append_comm).mpr (by omega)

/-- Two messages of two parts each are taken for one message, in whatever order the parts arrive. -/
theorem not_reassemble_same_length : ∃ pdus₁ pdus₂ ms₁ ms₂,
    encodePDU (lit "+4915112345678") (repeated 'ж' 71) (lit "UCS2") = .ok pdus₁ ∧
    encodePDU (lit "+4915112345678") (repeated 'я' 71) (lit "UCS2") = .ok pdus₂ ∧
    pdus₁.length = 2 ∧ pdus₂.length = 2 ∧
    List.Forall₂ EncodedPDU.Reads pdus₁ ms₁ ∧ List.Forall₂ EncodedPDU.Reads pdus₂ ms₂ ∧
      ∀ received, received.Perm (ms₁ ++ ms₂) →
        (reassemble received).length = 1 ∧ ¬ (reassemble received).Perm [ms₁, ms₂] := by
  obtain ⟨pdus₁, henc₁⟩ : ∃ pdus,
      encodePDU (lit "+4915112345678") (repeated 'ж' 71) (lit "UCS2") = .ok pdus := ⟨_, rfl⟩
  obtain ⟨pdus₂, henc₂⟩ : ∃ pdus,
      encodePDU (lit "+4915112345678") (repeated 'я' 71) (lit "UCS2") = .ok pdus := ⟨_, rfl⟩
  have htwo₁ : pdus₁.length = 2 := (length_encodePDU henc₁).trans (partCount_repeated 'ж' 71)
  have htwo₂ : pdus₂.length = 2 := (length_encodePDU henc₂).trans (partCount_repeated 'я' 71)
  have hdest : (encodeBCDAddress (lit "+4915112345678")).1 < 256 := by decide
  obtain ⟨ms₁, hms₁⟩ := partsOf_encodePDU hdest henc₁ (by omega) (by omega)
  obtain ⟨ms₂, hms₂⟩ := partsOf_encodePDU hdest henc₂ (by omega) (by omega)
  have hgroup₁ := hms₁.group_eq
  have hgroup₂ := hms₂.group_eq
  rw [htwo₁] at hgroup₁
  rw [htwo₂] at hgroup₂
  refine ⟨pdus₁, pdus₂, ms₁, ms₂, henc₁, henc₂, htwo₁, htwo₂, hms₁.reads, hms₂.reads, ?_⟩
  intro received hperm
  have hlen : (reassemble received).length = 1 :=
    length_assemble_of_eq hperm hgroup₁ hgroup₂ (hms₁.ne_nil (by omega)) (hms₂.ne_nil (by omega))
  refine ⟨hlen, fun h => ?_⟩
  rw [h.length_eq] at hlen
  cases hlen

end SmsGate.At
