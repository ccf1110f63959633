/-
# JSON strings read back

A well-formed text that was written as a JSON string is read back, together with whatever follows its
closing quote.  The reader first collects the parts of the string and then joins the escaped surrogates
in pairs.  A well-formed text has no surrogate of its own, so the only pairs are those that the writer
made for a code point above the basic plane.
-/

import HookAtlas.Json.Parser
import HookAtlas.Json.Printer
import HookAtlas.Proofs.Number.Decimal
import HookAtlas.Proofs.Text.Utf8

namespace HookAtlas.Json

/-! ## The parts of a string -/

theorem parseStringParts?_quote (rest : Text) :
    parseStringParts? (CodePoint.ofChar '"' :: rest) = some ([], rest) := by
  rw [parseStringParts?.eq_def]
  rfl

/-- A code point that is neither escaped nor special stands for itself. -/
theorem parseStringParts?_plain {c : CodePoint} (hquote : c ≠ '"') (hbackslash : c ≠ '\\')
    (hcontrol : 0x20 ≤ c.val) (t : Text) :
    parseStringParts? (c :: t) =
      (parseStringParts? t).map fun (parts, rest) => (⟨false, c⟩ :: parts, rest) := by
  rw [parseStringParts?.eq_def]
  dsimp only
  rw [if_neg hquote, if_neg hbackslash, if_neg (by omega)]

/-- An escape of one letter. -/
theorem parseStringParts?_short {e c : CodePoint} (hletter : e ≠ 'u')
    (hescape : shortEscape? e = some c) (t : Text) :
    parseStringParts? (CodePoint.ofChar '\\' :: e :: t) =
      (parseStringParts? t).map fun (parts, rest) => (⟨false, c⟩ :: parts, rest) := by
  rw [parseStringParts?.eq_def]
  dsimp only
  rw [if_neg (by decide), if_pos rfl, if_neg hletter, hescape]

/-- A numeric escape of a 16-bit unit. -/
theorem parseStringParts?_unit {unit : Nat} (hunit : unit < 0x10000) (t : Text) :
    parseStringParts? (unitEscape unit ++ t) =
      (parseStringParts? t).map fun (parts, rest) =>
        (⟨true, CodePoint.ofNat unit⟩ :: parts, rest) := by
  have hvalue : unitValue? (CodePoint.ofHexDigit (unit / 16 / 16 / 16 % 16))
      (CodePoint.ofHexDigit (unit / 16 / 16 % 16)) (CodePoint.ofHexDigit (unit / 16 % 16))
      (CodePoint.ofHexDigit (unit % 16)) = some unit := by
    have hread (n : Nat) := CodePoint.hexValue?_ofHexDigit (Nat.mod_lt n (by decide : 0 < 16))
    rw [unitValue?, hread, hread, hread, hread]
    refine congrArg some ?_
    omega
  have htext : unitEscape unit ++ t = CodePoint.ofChar '\\' :: CodePoint.ofChar 'u' ::
      CodePoint.ofHexDigit (unit / 16 / 16 / 16 % 16) :: CodePoint.ofHexDigit (unit / 16 / 16 % 16) ::
      CodePoint.ofHexDigit (unit / 16 % 16) :: CodePoint.ofHexDigit (unit % 16) :: t := rfl
  rw [htext, parseStringParts?.eq_def]
  dsimp only
  rw [if_neg (by decide), if_pos rfl, if_pos rfl, hvalue]

/-! ## Joining the parts -/

/-- A part that was not written as the first half of a pair stands for itself. -/
theorem joinSurrogates_cons {part : StringPart}
    (hsingle : part.escaped = false ∨ part.codePoint.isSurrogate = false)
    (parts : List StringPart) :
    joinSurrogates (part :: parts) = part.codePoint :: joinSurrogates parts := by
  cases parts with
  | nil => rfl
  | cons low parts =>
      rw [joinSurrogates, if_neg]
      intro hpair
      simp only [Bool.and_eq_true, decide_eq_true_eq] at hpair
      rcases hsingle with hplain | hscalar
      · rw [hplain] at hpair
        exact Bool.false_ne_true hpair.1.1.1
      · simp only [CodePoint.isSurrogate, Bool.and_eq_false_iff, decide_eq_false_iff_not] at hscalar
        omega

/-- The two halves of a code point above the basic plane are joined. -/
theorem joinSurrogates_pair {c : CodePoint} (hastral : 0x10000 ≤ c.val) (parts : List StringPart) :
    joinSurrogates (⟨true, CodePoint.ofNat (0xD800 + (c.val - 0x10000) / 0x400)⟩ ::
      ⟨true, CodePoint.ofNat (0xDC00 + (c.val - 0x10000) % 0x400)⟩ :: parts) =
      c :: joinSurrogates parts := by
  have hlt := c.isLt
  have hhigh : (CodePoint.ofNat (0xD800 + (c.val - 0x10000) / 0x400)).val =
      0xD800 + (c.val - 0x10000) / 0x400 := by
    rw [CodePoint.ofNat, dif_pos (by omega)]
  have hlow : (CodePoint.ofNat (0xDC00 + (c.val - 0x10000) % 0x400)).val =
      0xDC00 + (c.val - 0x10000) % 0x400 := by
    rw [CodePoint.ofNat, dif_pos (by omega)]
  rw [joinSurrogates, hhigh, hlow, if_pos]
  · rw [show 0x10000 + (0xD800 + (c.val - 0x10000) / 0x400 - 0xD800) * 0x400 +
        (0xDC00 + (c.val - 0x10000) % 0x400 - 0xDC00) = c.val by omega, CodePoint.ofNat_val]
  · simp only [Bool.true_and, Bool.and_eq_true, decide_eq_true_eq]
    omega

/-! ## Strings -/

/-- Writing a code point in front of what is read puts that code point in front of the answer. -/
theorem parseString?_printCodePoint {c : CodePoint} (hscalar : c.isSurrogate = false)
    {t s rest : Text} (hread : parseString? t = some (s, rest)) :
    parseString? (printCodePoint c ++ t) = some (c :: s, rest) := by
  rw [parseString?, Option.map_eq_some_iff] at hread ⊢
  obtain ⟨⟨parts, after⟩, hparts, hjoin⟩ := hread
  rw [Prod.mk.injEq] at hjoin
  obtain ⟨rfl, rfl⟩ := hjoin
  have hone (part : StringPart) (hpart : part.codePoint = c)
      (hsingle : part.escaped = false ∨ part.codePoint.isSurrogate = false)
      (heq : parseStringParts? (printCodePoint c ++ t) =
        (parseStringParts? t).map fun (parts, rest) => (part :: parts, rest)) :
      ∃ answer, parseStringParts? (printCodePoint c ++ t) = some answer ∧
        (joinSurrogates answer.1, answer.2) = (c :: joinSurrogates parts, after) := by
    refine ⟨(part :: parts, after), by rw [heq, hparts]; rfl, ?_⟩
    rw [joinSurrogates_cons hsingle, hpart]
  have hshort (e : CodePoint) (hprint : printCodePoint c = [CodePoint.ofChar '\\', e])
      (hletter : e ≠ 'u') (hescape : shortEscape? e = some c) :
      ∃ answer, parseStringParts? (printCodePoint c ++ t) = some answer ∧
        (joinSurrogates answer.1, answer.2) = (c :: joinSurrogates parts, after) := by
    refine hone ⟨false, c⟩ rfl (.inl rfl) ?_
    rw [hprint]
    exact parseStringParts?_short hletter hescape t
  -- The cases are those of the writer, in its order.
  by_cases hquote : c = '"'
  · exact hshort '"' (by rw [printCodePoint, if_pos hquote]; rfl) (by decide) (by rw [hquote]; rfl)
  by_cases hbackslash : c = '\\'
  · exact hshort '\\' (by rw [hbackslash]; rfl) (by decide) (by rw [hbackslash]; rfl)
  by_cases hfeed : c = '\n'
  · exact hshort 'n' (by rw [hfeed]; rfl) (by decide) (by rw [hfeed]; rfl)
  by_cases hreturn : c = '\r'
  · exact hshort 'r' (by rw [hreturn]; rfl) (by decide) (by rw [hreturn]; rfl)
  by_cases htab : c = '\t'
  · exact hshort 't' (by rw [htab]; rfl) (by decide) (by rw [htab]; rfl)
  by_cases hbell : c.val = 0x8
  · rw [← CodePoint.ofNat_val c, hbell] at hshort ⊢
    exact hshort 'b' rfl (by decide) rfl
  by_cases hform : c.val = 0xC
  · rw [← CodePoint.ofNat_val c, hform] at hshort ⊢
    exact hshort 'f' rfl (by decide) rfl
  have hprint : printCodePoint c =
      if 0x20 ≤ c.val ∧ c.val ≤ 0x7E then [c]
      else if c.val < 0x10000 then unitEscape c.val
      else unitEscape (0xD800 + (c.val - 0x10000) / 0x400) ++
        unitEscape (0xDC00 + (c.val - 0x10000) % 0x400) := by
    rw [printCodePoint, if_neg hquote, if_neg hbackslash, if_neg hfeed, if_neg hreturn,
      if_neg htab, if_neg hbell, if_neg hform]
  by_cases hplain : 0x20 ≤ c.val ∧ c.val ≤ 0x7E
  · refine hone ⟨false, c⟩ rfl (.inl rfl) ?_
    rw [hprint, if_pos hplain]
    exact parseStringParts?_plain hquote hbackslash hplain.1 t
  rw [if_neg hplain] at hprint
  by_cases hbasic : c.val < 0x10000
  · refine hone ⟨true, c⟩ rfl (.inr hscalar) ?_
    rw [hprint, if_pos hbasic, parseStringParts?_unit hbasic, CodePoint.ofNat_val]
  · have hlt := c.isLt
    rw [if_neg hbasic] at hprint
    refine ⟨(⟨true, CodePoint.ofNat (0xD800 + (c.val - 0x10000) / 0x400)⟩ ::
      ⟨true, CodePoint.ofNat (0xDC00 + (c.val - 0x10000) % 0x400)⟩ :: parts, after), ?_, ?_⟩
    · rw [hprint, List.append_assoc, parseStringParts?_unit (by omega),
        parseStringParts?_unit (by omega), hparts]
      rfl
    · exact congrArg (·, after) (joinSurrogates_pair (by omega) parts)

/-- A well-formed text is read back from its JSON string, whatever follows the closing quote. -/
theorem parseString?_printText {t : Text} (hscalar : t.isScalar = true) (rest : Text) :
    parseString? (t.flatMap printCodePoint ++ CodePoint.ofChar '"' :: rest) = some (t, rest) := by
  induction t with
  | nil =>
      rw [List.flatMap_nil, List.nil_append, parseString?, parseStringParts?_quote]
      rfl
  | cons c cs ih =>
      rw [Text.isScalar, List.all_cons, Bool.and_eq_true, Bool.not_eq_true'] at hscalar
      rw [List.flatMap_cons, List.append_assoc]
      exact parseString?_printCodePoint hscalar.1 (ih hscalar.2)

end HookAtlas.Json
