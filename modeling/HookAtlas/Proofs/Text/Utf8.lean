/-
# Decoding what was encoded

The bytes of a code point lead the decoder from one gap between sequences to the next and make it write
that code point, unless it is a surrogate, for which there are no bytes that it accepts.  A well-formed
text therefore comes back from its bytes, and scrubbing leaves it as it is.
-/

import HookAtlas.Text.Scrub

namespace HookAtlas

namespace CodePoint

/-- A code point is the one of its number. -/
theorem ofNat_val (c : CodePoint) : ofNat c.val = c := by
  rw [ofNat, dif_pos c.isLt]

end CodePoint

namespace Utf8

variable {invalid : List Nat → Text}

/-! ## The first byte of a sequence -/

theorem start_one {b : Nat} (hb : b < 0x80) : start invalid b = ⟨[CodePoint.ofNat b], none⟩ := by
  rw [start, if_pos hb]

theorem start_two {b : Nat} (hlow : 0xC2 ≤ b) (hhigh : b ≤ 0xDF) :
    start invalid b = ⟨[], some ⟨[b], b - 0xC0, 0, 0x80, 0xBF⟩⟩ := by
  rw [start, if_neg (by omega), if_pos ⟨hlow, hhigh⟩]

/-- The bounds of the second byte of three leave out the longer forms of smaller numbers and the
surrogates. -/
theorem start_three {b : Nat} (hlow : 0xE0 ≤ b) (hhigh : b ≤ 0xEF) :
    start invalid b = ⟨[], some ⟨[b], b - 0xE0, 1, if b = 0xE0 then 0xA0 else 0x80,
      if b = 0xED then 0x9F else 0xBF⟩⟩ := by
  rw [start, if_neg (by omega), if_neg (by omega)]
  by_cases hfirst : b = 0xE0
  · rw [if_pos hfirst, if_pos hfirst, if_neg (by omega), hfirst]
  rw [if_neg hfirst, if_neg hfirst]
  by_cases hsurrogate : b = 0xED
  · rw [if_pos hsurrogate, if_pos hsurrogate, hsurrogate]
  rw [if_neg hsurrogate, if_neg hsurrogate, if_pos (by omega)]

/-- The bounds of the second byte of four leave out the longer forms of smaller numbers and what lies
beyond the code space. -/
theorem start_four {b : Nat} (hlow : 0xF0 ≤ b) (hhigh : b ≤ 0xF4) :
    start invalid b = ⟨[], some ⟨[b], b - 0xF0, 2, if b = 0xF0 then 0x90 else 0x80,
      if b = 0xF4 then 0x8F else 0xBF⟩⟩ := by
  rw [start, if_neg (by omega), if_neg (by omega), if_neg (by omega), if_neg (by omega),
    if_neg (by omega)]
  by_cases hfirst : b = 0xF0
  · rw [if_pos hfirst, if_pos hfirst, if_neg (by omega), hfirst]
  rw [if_neg hfirst, if_neg hfirst]
  by_cases hlast : b = 0xF4
  · rw [if_pos hlast, if_pos hlast, hlast]
  rw [if_neg hlast, if_neg hlast, if_pos (by omega)]

/-! ## The bytes of one code point -/

theorem decodeFrom_none_cons (b : Nat) (bs : List Nat) :
    decodeFrom invalid none (b :: bs) =
      (start invalid b).output ++ decodeFrom invalid (start invalid b).state bs := rfl

/-- The last byte of a sequence completes its code point. -/
theorem decodeFrom_last {s : Sequence} {b : Nat} (howed : s.owedAfterNext = 0) (hlow : s.low ≤ b)
    (hhigh : b ≤ s.high) (bs : List Nat) :
    decodeFrom invalid (some s) (b :: bs) =
      CodePoint.ofNat (s.bits * 0x40 + b % 0x40) :: decodeFrom invalid none bs := by
  rw [decodeFrom, step, if_pos ⟨hlow, hhigh⟩, howed]
  rfl

/-- An earlier byte of a sequence adds its bits. -/
theorem decodeFrom_next {s : Sequence} {b n : Nat} (howed : s.owedAfterNext = n + 1)
    (hlow : s.low ≤ b) (hhigh : b ≤ s.high) (bs : List Nat) :
    decodeFrom invalid (some s) (b :: bs) =
      decodeFrom invalid (some ⟨s.bytes ++ [b], s.bits * 0x40 + b % 0x40, n, 0x80, 0xBF⟩) bs := by
  rw [decodeFrom, step, if_pos ⟨hlow, hhigh⟩, howed]
  rfl

/-- The bytes of a code point are decoded to it.  The cases are the four lengths. -/
theorem decodeFrom_encodeCodePoint {c : CodePoint} (hscalar : c.isSurrogate = false)
    (bs : List Nat) :
    decodeFrom invalid none (encodeCodePoint c ++ bs) = c :: decodeFrom invalid none bs := by
  have hlt := c.isLt
  have hbeside : c.val < 0xD800 ∨ 0xDFFF < c.val := by
    simp only [CodePoint.isSurrogate, Bool.and_eq_false_iff, decide_eq_false_iff_not] at hscalar
    omega
  have hval {n : Nat} (hn : n = c.val) : CodePoint.ofNat n = c := by
    rw [hn, CodePoint.ofNat_val]
  rw [encodeCodePoint]
  by_cases hone : c.val < 0x80
  · rw [if_pos hone, List.singleton_append, decodeFrom_none_cons, start_one hone, hval rfl]
    rfl
  rw [if_neg hone]
  by_cases htwo : c.val < 0x800
  · rw [if_pos htwo, List.cons_append, List.singleton_append, decodeFrom_none_cons,
      start_two (by omega) (by omega), List.nil_append,
      decodeFrom_last rfl (by dsimp only; omega) (by dsimp only; omega)]
    rw [hval (by dsimp only; omega)]
  rw [if_neg htwo]
  by_cases hthree : c.val < 0x10000
  · rw [if_pos hthree, List.cons_append, List.cons_append, List.singleton_append,
      decodeFrom_none_cons, start_three (by omega) (by omega), List.nil_append,
      decodeFrom_next rfl (by dsimp only; split <;> omega) (by dsimp only; split <;> omega),
      decodeFrom_last rfl (by dsimp only; omega) (by dsimp only; omega)]
    rw [hval (by dsimp only; omega)]
  · rw [if_neg hthree, List.cons_append, List.cons_append, List.cons_append,
      List.singleton_append, decodeFrom_none_cons, start_four (by omega) (by omega),
      List.nil_append,
      decodeFrom_next rfl (by dsimp only; split <;> omega) (by dsimp only; split <;> omega),
      decodeFrom_next rfl (by dsimp only; omega) (by dsimp only; omega),
      decodeFrom_last rfl (by dsimp only; omega) (by dsimp only; omega)]
    rw [hval (by dsimp only; omega)]

/-- A well-formed text comes back from its bytes. -/
theorem decode_encode {t : Text} (hscalar : t.isScalar = true) : decode (encode t) = t := by
  rw [decode]
  induction t with
  | nil => rfl
  | cons c cs ih =>
      rw [Text.isScalar, List.all_cons, Bool.and_eq_true, Bool.not_eq_true'] at hscalar
      rw [encode, List.flatMap_cons, decodeFrom_encodeCodePoint hscalar.1]
      exact congrArg (c :: ·) (ih hscalar.2)

/-! ## No bytes are lost -/

/-- A byte between sequences is written, or it opens a sequence. -/
theorem state_start_ne_none (hinvalid : ∀ bytes, invalid bytes ≠ []) {b : Nat}
    (houtput : (start invalid b).output = []) : (start invalid b).state ≠ none := by
  rw [start] at houtput ⊢
  repeat' split
  all_goals simp_all

theorem state_step_ne_none (hinvalid : ∀ bytes, invalid bytes ≠ []) {state : Option Sequence} {b : Nat}
    (houtput : (step invalid state b).output = []) : (step invalid state b).state ≠ none := by
  cases state with
  | none => exact state_start_ne_none hinvalid houtput
  | some s =>
      simp only [step] at houtput ⊢
      split at houtput
      · split at houtput
        · cases houtput
        · simp_all
      · exact absurd (List.append_eq_nil_iff.mp houtput).1 (hinvalid s.bytes)

/-- Something is written for an open sequence and for any bytes. -/
theorem decodeFrom_ne_nil (hinvalid : ∀ bytes, invalid bytes ≠ []) {state : Option Sequence}
    {bytes : List Nat} (hopen : state ≠ none ∨ bytes ≠ []) : decodeFrom invalid state bytes ≠ [] := by
  induction bytes generalizing state with
  | nil =>
      cases state with
      | none => simp at hopen
      | some s => exact hinvalid s.bytes
  | cons b bs ih =>
      rw [decodeFrom]
      intro hnil
      obtain ⟨houtput, hrest⟩ := List.append_eq_nil_iff.mp hnil
      exact ih (.inl (state_step_ne_none hinvalid houtput)) hrest

end Utf8

namespace Text

/-- No byte of a file name stands in a well-formed text. -/
theorem fileBytes_of_isScalar {t : Text} (hscalar : t.isScalar = true) :
    t.fileBytes = Utf8.encode t := by
  rw [fileBytes, Utf8.encode, List.flatMap_def, List.flatMap_def]
  refine congrArg List.flatten (List.map_congr_left fun c hmem => ?_)
  have hplain := List.all_eq_true.mp hscalar c hmem
  rw [fileBytesOf, if_neg]
  intro hescaped
  simp only [CodePoint.isSurrogate, CodePoint.isEscapedByte, Bool.not_eq_true', Bool.and_eq_true,
    Bool.and_eq_false_iff, decide_eq_true_eq, decide_eq_false_iff_not] at hplain hescaped
  omega

/-- Scrubbing leaves a well-formed text as it is. -/
theorem scrub_of_isScalar {t : Text} (hscalar : t.isScalar = true) : t.scrub = t := by
  have hall : (t.all fun c => !c.isSurrogate || c.isEscapedByte) = true := by
    refine List.all_eq_true.mpr fun c hmem => ?_
    rw [List.all_eq_true.mp hscalar c hmem, Bool.true_or]
  rw [scrub, if_pos hall, fileBytes_of_isScalar hscalar, Utf8.decode_encode hscalar]

theorem fileBytesOf_ne_nil (c : CodePoint) : fileBytesOf c ≠ [] := by
  rw [fileBytesOf, Utf8.encodeCodePoint]
  repeat' split
  all_goals exact List.cons_ne_nil _ _

/-- Scrubbing leaves nothing of the empty text only. -/
theorem scrub_eq_nil_iff {t : Text} : t.scrub = [] ↔ t = [] := by
  constructor
  · intro hnil
    rw [scrub] at hnil
    split at hnil
    · have hbytes : t.fileBytes = [] := by
        apply Classical.byContradiction
        intro hsome
        exact Utf8.decodeFrom_ne_nil (fun _ => List.cons_ne_nil _ _) (.inr hsome) hnil
      cases t with
      | nil => rfl
      | cons c cs => exact absurd (List.append_eq_nil_iff.mp hbytes).1 (fileBytesOf_ne_nil c)
    · exact List.map_eq_nil_iff.mp hnil
  · rintro rfl
    rfl

end Text

/-- Reading a well-formed text returns it. -/
theorem ScalarText.ofText_text (t : ScalarText) : ScalarText.ofText t.text = t := by
  rw [ofText]
  congr 1
  exact Text.scrub_of_isScalar t.isScalar

end HookAtlas
