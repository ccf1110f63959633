/-
# Digits read back

What is written as a number is a run of digits of its class, and the reader gets the number back from
it.  Zeros in front change nothing, so the same holds of a number that is filled up to a width; it has
exactly that width where the number is small enough for it.
-/

import HookAtlas.Number.Decimal

namespace HookAtlas

namespace CodePoint

theorem val_ofDigit {d : Nat} (hd : d < 10) : (ofDigit d).val = 0x30 + d := by
  rw [ofDigit, ofNat, dif_pos (by omega)]

theorem isAsciiDigit_ofDigit {d : Nat} (hd : d < 10) : (ofDigit d).isAsciiDigit = true := by
  simp only [isAsciiDigit, val_ofDigit hd, Bool.and_eq_true, decide_eq_true_eq]
  omega

/-- A hexadecimal digit has the value that it was written for. -/
theorem hexValue?_ofHexDigit {d : Nat} (hd : d < 16) : (ofHexDigit d).hexValue? = some d := by
  rw [ofHexDigit]
  split
  · rw [hexValue?, ofNat, dif_pos (by omega), if_pos (by dsimp only; omega)]
    exact congrArg some (by dsimp only; omega)
  · rw [hexValue?, ofNat, dif_pos (by omega), if_neg (by dsimp only; omega),
      if_neg (by dsimp only; omega), if_pos (by dsimp only; omega)]
    exact congrArg some (by dsimp only; omega)

end CodePoint

namespace Number

/-- The number that a text of digits stands for. -/
def decimalValue (t : Text) : Nat :=
  ofDigits 10 (t.map fun c => c.val - 0x30)

theorem decimalValue_append_ofDigit (t : Text) {d : Nat} (hd : d < 10) :
    decimalValue (t ++ [CodePoint.ofDigit d]) = decimalValue t * 10 + d := by
  rw [decimalValue, ofDigits, List.map_append, List.foldl_append, List.map_singleton,
    CodePoint.val_ofDigit hd, Nat.add_sub_cancel_left]
  rfl

/-! ## The digits of a number -/

theorem natText_ne_nil (n : Nat) : natText n ≠ [] := by
  rw [natText]
  split
  · exact List.cons_ne_nil _ _
  · simp

theorem isAsciiDigit_of_mem_natText {n : Nat} : ∀ c ∈ natText n, c.isAsciiDigit = true := by
  fun_induction natText n with
  | case1 n hsmall =>
      intro c hmem
      rw [List.mem_singleton.mp hmem]
      exact CodePoint.isAsciiDigit_ofDigit hsmall
  | case2 n hlarge ih =>
      intro c hmem
      rcases List.mem_append.mp hmem with hmem | hmem
      · exact ih c hmem
      · rw [List.mem_singleton.mp hmem]
        exact CodePoint.isAsciiDigit_ofDigit (Nat.mod_lt n (by decide))

/-- The digits of a number stand for it. -/
theorem decimalValue_natText (n : Nat) : decimalValue (natText n) = n := by
  fun_induction natText n with
  | case1 n hsmall =>
      rw [← List.nil_append [CodePoint.ofDigit n], decimalValue_append_ofDigit [] hsmall]
      show 0 * 10 + n = n
      omega
  | case2 n hlarge ih =>
      rw [decimalValue_append_ofDigit _ (Nat.mod_lt n (by decide)), ih]
      omega

/-- Only the number zero is written with a zero in front. -/
theorem natText_eq_of_head?_zero {n : Nat} (hzero : (natText n).head? = some (CodePoint.ofDigit 0)) :
    n = 0 := by
  fun_induction natText n with
  | case1 n hsmall =>
      have hval := congrArg CodePoint.val (Option.some.inj hzero)
      rw [CodePoint.val_ofDigit hsmall, CodePoint.val_ofDigit (by decide)] at hval
      omega
  | case2 n hlarge ih =>
      obtain ⟨c, cs, hdigits⟩ := List.exists_cons_of_ne_nil (natText_ne_nil (n / 10))
      rw [hdigits] at ih hzero
      have hprefix := ih hzero
      omega

theorem pow_ten_le {fewer more : Nat} (hle : fewer ≤ more) : Nat.pow 10 fewer ≤ Nat.pow 10 more :=
  Nat.pow_le_pow_right (by decide) hle

/-- A number of 64 bits has few enough digits. -/
theorem lt_pow_maxDigits {n : Nat} (hle : n ≤ 9223372036854775808) : n < Nat.pow 10 maxDigits := by
  have hdigits : Nat.pow 10 19 ≤ Nat.pow 10 maxDigits := pow_ten_le (by decide)
  have hnineteen : 9223372036854775808 < Nat.pow 10 19 := by decide
  exact Nat.lt_of_le_of_lt hle (Nat.lt_of_lt_of_le hnineteen hdigits)

theorem length_natText_le {n width : Nat} (hwidth : 0 < width) (hn : n < Nat.pow 10 width) :
    (natText n).length ≤ width := by
  fun_induction natText n generalizing width with
  | case1 n hsmall => exact hwidth
  | case2 n hlarge ih =>
      obtain ⟨width, rfl⟩ := Nat.exists_eq_succ_of_ne_zero (Nat.pos_iff_ne_zero.mp hwidth)
      have htenfold : n < Nat.pow 10 width * 10 := hn
      have hfewer : n / 10 < Nat.pow 10 width := by omega
      have hpos : 0 < width := by
        refine Nat.pos_of_ne_zero fun hzero => ?_
        have hnone : n / 10 < 1 := by rwa [hzero] at hfewer
        omega
      rw [List.length_append, List.length_singleton]
      exact Nat.succ_le_succ (ih hpos hfewer)

/-! ## Digits of a fixed width -/

theorem isAsciiDigit_of_mem_paddedText {width n : Nat} :
    ∀ c ∈ paddedText width n, c.isAsciiDigit = true := by
  intro c hmem
  rw [paddedText] at hmem
  rcases List.mem_append.mp hmem with hmem | hmem
  · rw [List.eq_of_mem_replicate hmem]
    exact CodePoint.isAsciiDigit_ofDigit (by decide)
  · exact isAsciiDigit_of_mem_natText c hmem

theorem length_paddedText {width n : Nat} (hwidth : 0 < width) (hn : n < Nat.pow 10 width) :
    (paddedText width n).length = width := by
  have hlength := length_natText_le hwidth hn
  rw [paddedText, List.length_append, List.length_replicate]
  omega

/-- Zeros in front change nothing. -/
theorem decimalValue_paddedText (width n : Nat) : decimalValue (paddedText width n) = n := by
  have hzeros (count : Nat) (t : Text) :
      decimalValue (List.replicate count (CodePoint.ofDigit 0) ++ t) = decimalValue t := by
    induction count with
    | zero => rfl
    | succ count ih => exact ih
  rw [paddedText, hzeros, decimalValue_natText]

/-- A number that was filled up to a width is read back. -/
theorem parseNat?_paddedText (width n : Nat) : parseNat? (paddedText width n) = some n := by
  have hnonempty : (paddedText width n).isEmpty = false := by
    rw [paddedText, List.isEmpty_eq_false_iff]
    exact fun hnil => natText_ne_nil n (List.append_eq_nil_iff.mp hnil).2
  have hdigits : (paddedText width n).all CodePoint.isAsciiDigit = true :=
    List.all_eq_true.mpr isAsciiDigit_of_mem_paddedText
  rw [parseNat?, hnonempty, if_neg Bool.false_ne_true, if_pos hdigits]
  exact congrArg some (decimalValue_paddedText width n)

end Number

end HookAtlas
