/-
# The time of a scan is read back

The time of the last scan is kept as the text of a whole number.  A clock shows no more seconds than a double can
be large, so the text is far shorter than the longest number that is read, and it is read back as it was written.
-/

import HookAtlas.Catalogue.Listing
import HookAtlas.Hook.Clock
import HookAtlas.Proofs.Number.Decimal
import HookAtlas.Proofs.Text.Run
import Mathlib.Data.List.TakeWhile

namespace HookAtlas

/-! ## How large a double can be -/

namespace Number

/-- A double is a whole number below two to the power of 53, scaled by at most two to the power of 971. -/
theorem Binary64.finite_bounds {x : Float} {negative : Bool} {m : Magnitude}
    (hfinite : Binary64.ofFloat x = .finite negative m) :
    m.mantissa < Nat.pow 2 53 ∧ m.exponent ≤ 971 := by
  have hdouble : Nat.pow 2 53 = Nat.pow 2 52 + Nat.pow 2 52 := by decide
  have hfraction : x.toBits.toNat % Nat.pow 2 52 < Nat.pow 2 52 := Nat.mod_lt _ (by decide)
  have hbiased : x.toBits.toNat / Nat.pow 2 52 % Nat.pow 2 11 < 2048 := Nat.mod_lt _ (by decide)
  rw [Binary64.ofFloat] at hfinite
  split at hfinite
  · split at hfinite
    · cases hfinite
    · cases hfinite
  · next hother =>
      split at hfinite
      · cases hfinite
        exact ⟨by dsimp only; omega, by dsimp only; omega⟩
      · cases hfinite
        exact ⟨by dsimp only; omega, by dsimp only; omega⟩

theorem Magnitude.ratio_lt {m : Magnitude} {digits : Nat} (hmantissa : m.mantissa < Nat.pow 2 53)
    (hexponent : m.exponent ≤ 971) (hdigits : 53 + 971 ≤ digits) : m.ratio.1 < Nat.pow 10 digits := by
  have hten {exponent : Nat} (hle : exponent ≤ digits) : Nat.pow 2 exponent ≤ Nat.pow 10 digits :=
    Nat.le_trans (Nat.pow_le_pow_left (by decide) exponent) (Nat.pow_le_pow_right (by decide) hle)
  rw [ratio]
  split
  · calc m.mantissa * Nat.pow 2 m.exponent.toNat
        < Nat.pow 2 53 * Nat.pow 2 m.exponent.toNat :=
          Nat.mul_lt_mul_of_pos_right hmantissa (Nat.pow_pos (by decide))
      _ = Nat.pow 2 (53 + m.exponent.toNat) := (Nat.pow_add 2 53 m.exponent.toNat).symm
      _ ≤ Nat.pow 10 digits := hten (by omega)
  · exact Nat.lt_of_lt_of_le hmantissa (hten (by omega))

theorem natAbs_lt_of_truncate? {x : Float} {n : Int} {digits : Nat} (htruncate : truncate? x = some n)
    (hdigits : 53 + 971 ≤ digits) : n.natAbs < Nat.pow 10 digits := by
  rw [truncate?] at htruncate
  split at htruncate
  · next negative m hfinite =>
      obtain ⟨hmantissa, hexponent⟩ := Binary64.finite_bounds hfinite
      have hquotient : m.ratio.1 / m.ratio.2 < Nat.pow 10 digits :=
        Nat.lt_of_le_of_lt (Nat.div_le_self _ _) (Magnitude.ratio_lt hmantissa hexponent hdigits)
      have hn := Option.some.inj htruncate
      cases negative with
      | false =>
          rw [← hn]
          exact hquotient
      | true =>
          rw [← hn, if_pos rfl, Int.natAbs_neg]
          exact hquotient
  · cases htruncate

/-- No double has as many digits as the longest number that is read. -/
theorem natAbs_lt_of_wholeSeconds {clock : Float} {seconds : Int}
    (hseconds : Clock.wholeSeconds clock = .ok seconds) : seconds.natAbs < Nat.pow 10 maxDigits := by
  rw [Clock.wholeSeconds] at hseconds
  split at hseconds
  · cases hseconds
  · next n htruncate =>
      cases hseconds
      exact natAbs_lt_of_truncate? htruncate (by decide)

end Number

/-! ## Reading digits of any script -/

theorem CodePoint.decimalValue?_of_isAsciiDigit {c : CodePoint} (hdigit : c.isAsciiDigit = true) :
    c.decimalValue? = some (c.val - 0x30) := by
  have hfirst : (decide (0x30 ≤ c.val) && decide (c.val ≤ 0x30 + 9)) = true := by
    rw [Bool.and_eq_true, decide_eq_true_eq, decide_eq_true_eq]
    simp only [isAsciiDigit, Bool.and_eq_true, decide_eq_true_eq] at hdigit
    omega
  have hfound : decimalZeros.find? (fun start => start ≤ c.val && c.val ≤ start + 9) = some 0x30 :=
    List.find?_cons_of_pos hfirst
  rw [decimalValue?, hfound, Option.map_some]

/-- A text that occurs in another one is a part of it. -/
theorem Text.infix_of_occursIn {needle t : Text} (hoccurs : Text.occursIn needle t = true) : needle <:+: t := by
  induction t with
  | nil =>
      rw [occursIn, List.isEmpty_iff] at hoccurs
      subst hoccurs
      exact List.infix_rfl
  | cons c cs ih =>
      rw [occursIn, Bool.or_eq_true, List.isPrefixOf_iff_prefix] at hoccurs
      rcases hoccurs with hprefix | hlater
      · exact hprefix.isInfix
      · exact (ih hlater).trans (List.suffix_cons c cs).isInfix

section Digits

variable {t : Text} (hdigits : ∀ c ∈ t, c.isAsciiDigit = true)

include hdigits

theorem not_mem_of_digits {c : CodePoint} (hother : c.isAsciiDigit = false) : c ∉ t := by
  intro hmem
  rw [hdigits c hmem] at hother
  cases hother

theorem hasStrayUnderscore_of_digits : Number.hasStrayUnderscore t = false := by
  have hnone : CodePoint.ofChar '_' ∉ t := not_mem_of_digits hdigits (by decide)
  rw [Bool.eq_false_iff]
  intro hstray
  simp only [Number.hasStrayUnderscore, Bool.or_eq_true, decide_eq_true_eq] at hstray
  rcases hstray with (hhead | hlast) | hdoubled
  · exact hnone (List.mem_of_head? hhead)
  · exact hnone (List.mem_of_getLast? hlast)
  · exact hnone ((Text.infix_of_occursIn hdoubled).subset List.mem_cons_self)

/-- A run of digits that is not too long is read as the number for which it stands. -/
theorem unicodeNat_of_digits (hsome : t ≠ []) (hshort : t.length ≤ Number.maxDigits) :
    unicodeNat t = .ok (Number.decimalValue t) := by
  have hrun : (t.takeWhile fun c : CodePoint => c.decimalValue?.isSome || c = '_') = t := by
    rw [List.takeWhile_eq_self_iff]
    intro c hmem
    rw [CodePoint.decimalValue?_of_isAsciiDigit (hdigits c hmem)]
    rfl
  have hvalues : t.filterMap CodePoint.decimalValue? = t.map fun c => c.val - 0x30 := by
    rw [← List.filterMap_eq_map']
    exact List.filterMap_congr fun c hmem => CodePoint.decimalValue?_of_isAsciiDigit (hdigits c hmem)
  have hempty : (t.map fun c => c.val - 0x30).isEmpty = false := by simpa using hsome
  rw [unicodeNat, hrun, hvalues, hasStrayUnderscore_of_digits hdigits, hempty, List.length_map]
  rw [if_neg (by decide), if_neg (Nat.not_lt.mpr hshort), if_neg (Nat.lt_irrefl _)]
  rfl

end Digits

/-! ## Scan times -/

/-- The digits of a number are read as that number, unless they are too many. -/
theorem unicodeNat_natText {n : Nat} (hshort : n < Nat.pow 10 Number.maxDigits) :
    unicodeNat (Number.natText n) = .ok n := by
  rw [unicodeNat_of_digits Number.isAsciiDigit_of_mem_natText (Number.natText_ne_nil n)
    (Number.length_natText_le (by decide) hshort), Number.decimalValue_natText]

/-- No white space is stripped off a number. -/
theorem strip_intText (n : Int) : (Number.intText n).strip CodePoint.isUnicodeSpace = Number.intText n := by
  have hdigit {c : CodePoint} (hdigit : c.isAsciiDigit = true) : c.isUnicodeSpace = false := by
    rw [Bool.eq_false_iff]
    intro hspace
    simp only [CodePoint.isAsciiDigit, Bool.and_eq_true, decide_eq_true_eq] at hdigit
    simp only [CodePoint.isUnicodeSpace, Bool.or_eq_true, Bool.and_eq_true, decide_eq_true_eq,
      beq_iff_eq] at hspace
    omega
  have hmem : ∀ c ∈ Number.intText n, c.isUnicodeSpace = false := by
    intro c hmem
    cases n with
    | ofNat n => exact hdigit (Number.isAsciiDigit_of_mem_natText c hmem)
    | negSucc n =>
        rcases List.mem_cons.mp hmem with rfl | hmem
        · decide
        · exact hdigit (Number.isAsciiDigit_of_mem_natText c hmem)
  exact Text.strip_eq_self (fun c hhead => hmem c (List.mem_of_head? hhead))
    fun c hlast => hmem c (List.mem_of_getLast? hlast)

/-- A whole number that is not too long is read back. -/
theorem unicodeInt_intText {n : Int} (hshort : n.natAbs < Nat.pow 10 Number.maxDigits) :
    unicodeInt (Number.intText n) = .ok n := by
  rw [unicodeInt, strip_intText]
  cases n with
  | ofNat n =>
      obtain ⟨c, cs, htext⟩ := List.exists_cons_of_ne_nil (Number.natText_ne_nil n)
      have hdigit : c.isAsciiDigit = true :=
        Number.isAsciiDigit_of_mem_natText c (htext ▸ List.mem_cons_self)
      have hsign {sign : CodePoint} (hother : sign.isAsciiDigit = false) : c ≠ sign := by
        rintro rfl
        rw [hdigit] at hother
        cases hother
      rw [Number.intText, htext]
      dsimp only
      rw [if_neg (hsign (by decide)), if_neg (hsign (by decide)), ← htext, unicodeNat_natText (n := n) hshort]
      rfl
  | negSucc n =>
      rw [Number.intText]
      dsimp only
      rw [if_pos rfl, unicodeNat_natText (n := n + 1) hshort]
      rfl

/-- The time that a clock shows is read back. -/
theorem scanTimeOf_intText {clock : Float} {seconds : Int}
    (hseconds : Clock.wholeSeconds clock = .ok seconds) :
    scanTimeOf (some (Number.intText seconds)) = .ok seconds := by
  have hsome : Number.intText seconds ≠ [] := by
    cases seconds with
    | ofNat n => exact Number.natText_ne_nil n
    | negSucc n => exact List.cons_ne_nil _ _
  rw [scanTimeOf, if_neg hsome, unicodeInt_intText (Number.natAbs_lt_of_wholeSeconds hseconds)]
  rfl

end HookAtlas
