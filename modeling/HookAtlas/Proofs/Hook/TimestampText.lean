/-
# Moments read back

The ISO text of a moment is read back, with its fraction and with its distance from UTC.  Each part is
written with a fixed number of digits and followed by a mark, so the reader takes the parts off one by
one.  The fraction is the only part whose end the reader has to find; what follows it never starts with a
digit.
-/

import HookAtlas.Hook.TimestampText
import HookAtlas.Proofs.Number.Decimal
import HookAtlas.Proofs.Text.Run

namespace HookAtlas.Timestamp

/-! ## The small readers -/

/-- A number of fixed width is taken off. -/
theorem takeNumber?_paddedText {width n : Nat} (hwidth : 0 < width) (hn : n < Nat.pow 10 width)
    (rest : Text) : takeNumber? width (Number.paddedText width n ++ rest) = some (n, rest) := by
  have hlength := Number.length_paddedText hwidth hn
  rw [takeNumber?, List.take_left' hlength, List.drop_left' hlength, if_pos hlength,
    Number.parseNat?_paddedText]
  rfl

/-- The marks of a moment are taken off. -/
theorem takeMark?_mark {mark : Char} {marks : List Char} (hmem : mark ∈ marks) (rest : Text) :
    takeMark? marks (Text.mark mark ++ rest) = some rest := by
  rw [Text.mark, List.singleton_append, takeMark?, if_pos]
  exact List.any_eq_true.mpr ⟨mark, hmem, decide_eq_true rfl⟩

/-- What does not start with one of the marks is left as it is. -/
theorem takeMark?_eq_none {marks : List Char} {t : Text}
    (hother : ∀ c, t.head? = some c → (marks.any fun mark => c = mark) = false) :
    takeMark? marks t = none := by
  cases t with
  | nil => rfl
  | cons c cs => rw [takeMark?, hother c rfl, if_neg Bool.false_ne_true]

/-! ## The distance from UTC -/

theorem hoursAndMinutes?_paddedText {hours minutes : Nat} (hhours : hours < 100)
    (hminutes : minutes < 60) :
    hoursAndMinutes? (Number.paddedText 2 hours ++ (Text.mark ':' ++ Number.paddedText 2 minutes)) =
      some (Int.ofNat (hours * 60 + minutes)) := by
  have hlast := takeNumber?_paddedText (by decide : 0 < 2) (by omega : minutes < 100) []
  rw [List.append_nil] at hlast
  simp only [hoursAndMinutes?, takeNumber?_paddedText (by decide : 0 < 2) (by omega : hours < 100),
    takeMark?_mark List.mem_cons_self, hlast, Option.bind_eq_bind, Option.bind_some, Option.getD_some,
    true_and, if_pos hminutes]

/-- What is written for a distance from UTC, or for none. -/
def offsetPart (offset : Option Int) : Text :=
  offset.elim [] offsetText

/-- A distance from UTC is read back. -/
theorem readOffset?_offsetPart {offset : Option Int}
    (hvalid : offset.all fun minutes =>
      -TimestampFields.minutesPerDay < minutes && minutes < TimestampFields.minutesPerDay) :
    readOffset? (offsetPart offset) = some offset := by
  cases offset with
  | none => rfl
  | some minutes =>
      obtain ⟨habove, hbelow⟩ := Bool.and_eq_true_iff.mp hvalid
      have hlower : -1440 < minutes := of_decide_eq_true habove
      have hupper : minutes < 1440 := of_decide_eq_true hbelow
      by_cases hzero : minutes = 0
      · rw [hzero]
        rfl
      have hread := hoursAndMinutes?_paddedText (by omega : minutes.natAbs / 60 < 100)
        (Nat.mod_lt minutes.natAbs (by decide))
      have hsum : minutes.natAbs / 60 * 60 + minutes.natAbs % 60 = minutes.natAbs := by omega
      have htext : offsetPart (some minutes) =
          CodePoint.ofChar (if minutes < 0 then '-' else '+') ::
            (Number.paddedText 2 (minutes.natAbs / 60) ++
              (Text.mark ':' ++ Number.paddedText 2 (minutes.natAbs % 60))) := by
        rw [offsetPart, Option.elim_some, offsetText, if_neg hzero, List.append_assoc,
          List.append_assoc]
        rfl
      rw [hsum] at hread
      by_cases hsign : minutes < 0
      · rw [htext, if_pos hsign, readOffset?, if_neg (by decide), if_neg (by decide),
          if_pos (by decide), hread, Option.map_some]
        refine congrArg some (congrArg some ?_)
        rw [Int.ofNat_eq_natCast]
        omega
      · rw [htext, if_neg hsign, readOffset?, if_neg (by decide), if_pos rfl, hread,
          Option.map_some]
        refine congrArg some (congrArg some ?_)
        rw [Int.ofNat_eq_natCast]
        omega

/-- What is written for a distance from UTC does not go on with a fraction. -/
theorem head?_offsetPart {offset : Option Int} {c : CodePoint}
    (hhead : (offsetPart offset).head? = some c) : c = 'Z' ∨ c = '-' ∨ c = '+' := by
  cases offset with
  | none => cases hhead
  | some minutes =>
      rw [offsetPart, Option.elim_some, offsetText] at hhead
      split at hhead
      · exact .inl (Option.some.inj hhead).symm
      · split at hhead
        · exact .inr (.inl (Option.some.inj hhead).symm)
        · exact .inr (.inr (Option.some.inj hhead).symm)

/-! ## The fraction -/

/-- What is written for the fraction of a second. -/
def fractionPart (micro : Nat) : Text :=
  if micro = 0 then [] else Text.mark '.' ++ Number.paddedText 6 micro

/-- A fraction is read back before anything that goes on with neither a digit nor a point. -/
theorem takeFraction?_fractionPart {micro : Nat} (hmicro : micro ≤ 999999) (offset : Option Int) :
    takeFraction? (fractionPart micro ++ offsetPart offset) = some (micro, offsetPart offset) := by
  by_cases hzero : micro = 0
  · have hnone : takeMark? ['.', ','] (offsetPart offset) = none := by
      refine takeMark?_eq_none fun c hhead => ?_
      rcases head?_offsetPart hhead with rfl | rfl | rfl
      · decide
      · decide
      · decide
    rw [fractionPart, if_pos hzero, List.nil_append, takeFraction?, hnone, hzero]
  · have hoffset : (offsetPart offset).takeWhile CodePoint.isAsciiDigit = [] := by
      cases hcons : offsetPart offset with
      | nil => rfl
      | cons c cs =>
          have hdigit : c.isAsciiDigit = false := by
            rcases head?_offsetPart (by rw [hcons]; rfl) with rfl | rfl | rfl
            · decide
            · decide
            · decide
          rw [List.takeWhile_cons, hdigit]
          rfl
    have hlength := Number.length_paddedText (by decide : 0 < 6) (by omega : micro < 1000000)
    have hrun : (Number.paddedText 6 micro ++ offsetPart offset).takeWhile CodePoint.isAsciiDigit =
        Number.paddedText 6 micro := by
      rw [List.takeWhile_append_of_pos Number.isAsciiDigit_of_mem_paddedText, hoffset,
        List.append_nil]
    rw [fractionPart, if_neg hzero, List.append_assoc, takeFraction?,
      takeMark?_mark List.mem_cons_self]
    dsimp only
    rw [hrun, List.take_of_length_le (by omega), Number.parseNat?_paddedText, Option.map_some,
      hlength, List.drop_left' hlength]
    have hall : micro * Nat.pow 10 (6 - 6) = micro := Nat.mul_one micro
    rw [hall]

/-! ## Moments -/

theorem daysInMonth_le (year month : Nat) : Calendar.daysInMonth year month ≤ 31 := by
  rw [Calendar.daysInMonth]
  split
  · split <;> omega
  · split <;> omega

/-- The bounds of the calendar fields of a moment. -/
theorem fields_bounds (t : Timestamp) :
    t.year ≤ 9999 ∧ t.month ≤ 12 ∧ t.day ≤ 31 ∧ t.hour ≤ 23 ∧ t.minute ≤ 59 ∧ t.second ≤ 59 ∧
      t.micro ≤ 999999 ∧ (t.offset.all fun minutes =>
        -TimestampFields.minutesPerDay < minutes && minutes < TimestampFields.minutesPerDay) = true := by
  have hvalid := t.valid
  have hdays := daysInMonth_le t.year t.month
  simp only [TimestampFields.isValid, TimestampFields.hasValidDate, Bool.and_eq_true,
    decide_eq_true_eq] at hvalid
  obtain ⟨⟨-, hyear⟩, ⟨⟨⟨⟨⟨⟨⟨⟨-, hmonth⟩, -⟩, hday⟩, hhour⟩, hminute⟩, hsecond⟩, hmicro⟩, hoffset⟩⟩ :=
    hvalid
  exact ⟨hyear, hmonth, by omega, hhour, hminute, hsecond, hmicro, hoffset⟩

/-- The parts of the ISO text, in the order in which the reader takes them off. -/
theorem isoText_eq (t : Timestamp) :
    t.isoText = Number.paddedText 4 t.year ++ (Text.mark '-' ++ (Number.paddedText 2 t.month ++
      (Text.mark '-' ++ (Number.paddedText 2 t.day ++ (Text.mark 'T' ++ (Number.paddedText 2 t.hour ++
        (Text.mark ':' ++ (Number.paddedText 2 t.minute ++ (Text.mark ':' ++
          (Number.paddedText 2 t.second ++ (fractionPart t.micro ++ offsetPart t.offset))))))))))) := by
  rw [isoText, monthDayText, timeText, fractionPart, offsetPart]
  simp only [List.append_assoc]

/-- The ISO text of a moment is read back. -/
theorem ofText_isoText (t : Timestamp) : ofText t.isoText = .ok t := by
  obtain ⟨hyear, hmonth, hday, hhour, hminute, hsecond, hmicro, hoffset⟩ := t.fields_bounds
  have htime (rest : Text) : Text.mark 'T' ++ rest ≠ [] := List.cons_ne_nil _ _
  have hfields : readFields? t.isoText = some t.toTimestampFields := by
    have htwo : 0 < 2 := by decide
    rw [isoText_eq]
    simp only [readFields?, takeSeconds?, Option.bind_eq_bind, Option.bind_some,
      takeNumber?_paddedText (by decide : 0 < 4) (by omega : t.year < 10000),
      takeNumber?_paddedText htwo (by omega : t.month < 100),
      takeNumber?_paddedText htwo (by omega : t.day < 100),
      takeNumber?_paddedText htwo (by omega : t.hour < 100),
      takeNumber?_paddedText htwo (by omega : t.minute < 100),
      takeNumber?_paddedText htwo (by omega : t.second < 100),
      takeMark?_mark List.mem_cons_self, if_neg (htime _), takeFraction?_fractionPart hmicro,
      readOffset?_offsetPart hoffset]
  rw [ofText, hfields]
  dsimp only
  rw [ofFields?, dif_pos t.valid]

/-! ## The text of a moment is well-formed -/

theorem isScalar_of_isAsciiDigit {t : Text} (hdigits : ∀ c ∈ t, c.isAsciiDigit = true) :
    t.isScalar = true := by
  refine List.all_eq_true.mpr fun c hmem => ?_
  have hdigit := hdigits c hmem
  simp only [CodePoint.isAsciiDigit, Bool.and_eq_true, decide_eq_true_eq] at hdigit
  simp only [CodePoint.isSurrogate, Bool.not_eq_true', Bool.and_eq_false_iff,
    decide_eq_false_iff_not]
  omega

theorem isScalar_paddedText (width n : Nat) : (Number.paddedText width n).isScalar = true :=
  isScalar_of_isAsciiDigit Number.isAsciiDigit_of_mem_paddedText

theorem isScalar_offsetPart (offset : Option Int) : (offsetPart offset).isScalar = true := by
  cases offset with
  | none => rfl
  | some minutes =>
      rw [offsetPart, Option.elim_some, offsetText]
      split
      · decide
      · rw [Text.isScalar_append, Text.isScalar_append, Text.isScalar_append, isScalar_paddedText,
          isScalar_paddedText]
        split
        · decide
        · decide

theorem isScalar_fractionPart (micro : Nat) : (fractionPart micro).isScalar = true := by
  rw [fractionPart]
  split
  · rfl
  · rw [Text.isScalar_append, isScalar_paddedText]
    decide

theorem isScalar_isoText (t : Timestamp) : t.isoText.isScalar = true := by
  rw [isoText_eq]
  simp only [Text.isScalar_append, isScalar_paddedText, isScalar_fractionPart, isScalar_offsetPart]
  decide

end HookAtlas.Timestamp
