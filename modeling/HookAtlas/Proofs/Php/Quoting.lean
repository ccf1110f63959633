/-
# Writing a text as a quoted literal

`Quoting.literal` writes a text between quotes of either sort and puts a backslash before every code
point that would not stand for itself there.  Such a literal is lexed to its last quote whatever follows
it, embeds no variable, and decodes to the text that was written.

This is the direction from values to literals.  Nothing is said about literals that are written in any
other way, with octal escapes for instance.
-/

import HookAtlas.Php.Lexeme
import HookAtlas.Php.Literal
import HookAtlas.Proofs.Text.Run

namespace HookAtlas.Php

/-- The two ways in which a plain string may be quoted. -/
inductive Quoting
  | single
  | double
deriving DecidableEq, Repr

namespace Quoting

/-- The quote at both ends. -/
def quote : Quoting → CodePoint
  | .single => '\''
  | .double => '"'

/-- What needs a backslash between the quotes: the backslash itself, the quote, and between double
quotes the dollar sign, before which a variable would be read. -/
def needsEscape : Quoting → CodePoint → Prop
  | .single, c => c = '\\' ∨ c = '\''
  | .double, c => c = '\\' ∨ c = '"' ∨ c = '$'

instance (quoting : Quoting) (c : CodePoint) : Decidable (quoting.needsEscape c) := by
  cases quoting with
  | single => exact inferInstanceAs (Decidable (_ ∨ _))
  | double => exact inferInstanceAs (Decidable (_ ∨ _))

/-- The text between the quotes. -/
def escape (quoting : Quoting) : Text → Text
  | [] => []
  | c :: cs =>
    if quoting.needsEscape c then CodePoint.ofChar '\\' :: c :: quoting.escape cs
    else c :: quoting.escape cs

/-- A text as a literal. -/
def literal (quoting : Quoting) (s : Text) : Text :=
  quoting.quote :: (quoting.escape s ++ [quoting.quote])

variable (quoting : Quoting)

@[simp]
theorem escape_nil : quoting.escape [] = [] := rfl

variable {quoting}

theorem escape_cons_of_needsEscape {c : CodePoint} (hneeds : quoting.needsEscape c) (cs : Text) :
    quoting.escape (c :: cs) = CodePoint.ofChar '\\' :: c :: quoting.escape cs := by
  rw [escape, if_pos hneeds]

theorem escape_cons_of_not {c : CodePoint} (hplain : ¬ quoting.needsEscape c) (cs : Text) :
    quoting.escape (c :: cs) = c :: quoting.escape cs := by
  rw [escape, if_neg hplain]

theorem needsEscape_backslash : quoting.needsEscape '\\' := by
  cases quoting with
  | single => exact .inl rfl
  | double => exact .inl rfl

theorem needsEscape_quote : quoting.needsEscape quoting.quote := by
  cases quoting with
  | single => exact .inr rfl
  | double => exact .inr (.inl rfl)

theorem quote_ne_backslash : quoting.quote ≠ '\\' := by
  cases quoting with
  | single => decide
  | double => decide

/-! ## Lexing a written literal -/

/-- The search for the closing quote passes over everything that was written. -/
theorem closingQuote?_escape (s rest : Text) :
    closingQuote? quoting.quote (quoting.escape s ++ quoting.quote :: rest) =
      some ((quoting.escape s).length + 1) := by
  induction s with
  | nil =>
      rw [escape_nil, List.nil_append, closingQuote?.eq_def]
      simp
  | cons c cs ih =>
      by_cases hneeds : quoting.needsEscape c
      · rw [escape_cons_of_needsEscape hneeds, List.cons_append, List.cons_append,
          closingQuote?.eq_def]
        simp [quote_ne_backslash.symm, ih]
      · have hquote : c ≠ quoting.quote := fun heq => hneeds (heq ▸ needsEscape_quote)
        have hbackslash : c ≠ '\\' := fun heq => hneeds (heq ▸ needsEscape_backslash)
        rw [escape_cons_of_not hneeds, List.cons_append, closingQuote?.eq_def]
        simp [hquote, hbackslash, ih]

/-- A written text does not start with a dollar sign between double quotes. -/
theorem head?_escape_ne_dollar (s : Text) : (double.escape s).head? ≠ some ('$' : CodePoint) := by
  cases s with
  | nil => decide
  | cons c cs =>
      by_cases hneeds : double.needsEscape c
      · rw [escape_cons_of_needsEscape hneeds, List.head?_cons]
        decide
      · rw [escape_cons_of_not hneeds, List.head?_cons]
        intro hhead
        exact hneeds (.inr (.inr (Option.some.inj hhead)))

/-- Nothing is embedded in a text written between double quotes. -/
theorem hasInterpolation_escape (s : Text) : hasInterpolation (double.escape s) = false := by
  induction s with
  | nil => rfl
  | cons c cs ih =>
      by_cases hneeds : double.needsEscape c
      · rw [escape_cons_of_needsEscape hneeds, hasInterpolation.eq_def]
        exact ih
      · have hbackslash : c ≠ '\\' := fun heq => hneeds (.inl heq)
        have hdollar : c ≠ '$' := fun heq => hneeds (.inr (.inr heq))
        have hnext := head?_escape_ne_dollar cs
        rw [escape_cons_of_not hneeds, hasInterpolation.eq_def]
        cases hrest : double.escape cs with
        | nil => simp [hbackslash]
        | cons d ds =>
            rw [hrest] at hnext ih
            have hnone : d ≠ '$' := fun heq => hnext (by rw [heq]; rfl)
            simp [hbackslash, hdollar, hnone, ih]

/-- A written literal is a plain string, whatever follows it. -/
theorem quotedLexeme_literal (quoting : Quoting) (kind : Text → TokenKind) (missing : Unterminated)
    (s rest : Text) (hkind : kind (quoting.escape s) = .string) :
    quotedLexeme quoting.quote kind missing (quoting.escape s ++ quoting.quote :: rest) =
      .token .string ((quoting.escape s).length + 1) := by
  rw [quotedLexeme, closingQuote?_escape]
  dsimp only
  rw [Nat.add_sub_cancel, List.take_left, hkind]

/-! ## Decoding a written literal -/

theorem decodeSingle_escape (s : Text) : decodeSingle (single.escape s) = s := by
  induction s with
  | nil => rfl
  | cons c cs ih =>
      by_cases hneeds : single.needsEscape c
      · rw [escape_cons_of_needsEscape hneeds, decodeSingle.eq_def]
        simp only [needsEscape] at hneeds
        simp [hneeds, ih]
      · have hbackslash : c ≠ '\\' := fun heq => hneeds (.inl heq)
        rw [escape_cons_of_not hneeds, decodeSingle.eq_def]
        simp [hbackslash, ih]

/-- What is escaped between double quotes is one of the marks that stand for themselves. -/
theorem simpleEscape?_of_needsEscape {c : CodePoint} (hneeds : double.needsEscape c) :
    simpleEscape? c = some c := by
  rcases hneeds with rfl | rfl | rfl
  · decide
  · decide
  · decide

theorem decodeDouble_escape (s : Text) : decodeDouble (double.escape s) = s := by
  induction s with
  | nil =>
      rw [escape_nil, decodeDouble]
  | cons c cs ih =>
      by_cases hneeds : double.needsEscape c
      · rw [escape_cons_of_needsEscape hneeds, decodeDouble, if_pos rfl, doubleEscape?,
          simpleEscape?_of_needsEscape hneeds]
        dsimp only
        rw [List.drop_one, List.tail_cons, ih, List.singleton_append]
      · have hbackslash : c ≠ '\\' := fun heq => hneeds (.inl heq)
        rw [escape_cons_of_not hneeds, decodeDouble, if_neg hbackslash, ih]

/-- A written literal has the value that was written. -/
theorem literalValue_literal (quoting : Quoting) (s : Text) :
    literalValue (quoting.literal s) = s := by
  rw [literal, literalValue, if_neg]
  · rw [List.dropLast_concat]
    cases quoting with
    | single => exact decodeSingle_escape s
    | double => exact decodeDouble_escape s
  · rw [List.getLast?_concat]
    simp

end Quoting

end HookAtlas.Php
