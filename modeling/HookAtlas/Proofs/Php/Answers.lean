/-
# The answers of the recogniser for code

The recogniser for code makes its tests in a fixed order and answers at the first that succeeds.  `CodeAnswer` lists
its answers, each with what is known of the place where it is given.  What is claimed of every answer is then
proved by cases on this list, and no proof goes through the tests again.
-/

import HookAtlas.Php.Lexer

namespace HookAtlas.Php

/-- What the recogniser for code answers at a place that starts with a code point, given what follows it. -/
inductive CodeAnswer (c : CodePoint) (cs : Text) : Lexeme → Prop
  | whitespace (hblank : c.isBlank = true) :
      CodeAnswer c cs (.token .whitespace (Text.runLength CodePoint.isBlank cs))
  | closeTag {rest : Text} (hmark : c = '?') (hcs : cs = CodePoint.ofChar '>' :: rest) :
      CodeAnswer c cs (.token .closeTag (1 + lineBreakLength rest))
  | docComment {body : Text} {n : Nat} (hslash : c = '/') (hcs : cs = CodePoint.ofChar '*' :: body)
      (hend : blockEnd? body = some n) :
      CodeAnswer c cs (.token .docComment (1 + n))
  | blockComment {body : Text} {n : Nat} (hslash : c = '/') (hcs : cs = CodePoint.ofChar '*' :: body)
      (hend : blockEnd? body = some n) :
      CodeAnswer c cs (.token .comment (1 + n))
  | openComment {body : Text} (hslash : c = '/') (hcs : cs = CodePoint.ofChar '*' :: body)
      (hend : blockEnd? body = none) :
      CodeAnswer c cs (.unterminated .blockComment)
  | opensAttribute {rest : Text} (hmark : c = '#') (hcs : cs = CodePoint.ofChar '[' :: rest) :
      CodeAnswer c cs (.token .punct 1)
  | lineComment (hopener : c = '#' ∨ c = '/' ∧ cs.head? = some (CodePoint.ofChar '/')) :
      CodeAnswer c cs (.token .comment (lineCommentLength cs))
  | string {n : Nat} (hquote : c = '\'' ∨ c = '"') (hend : closingQuote? c cs = some n)
      (hbody : c = '"' → hasInterpolation (cs.take (n - 1)) = false) :
      CodeAnswer c cs (.token .string n)
  | template {n : Nat} (hquote : c = '"' ∨ c.val = 0x60) (hend : closingQuote? c cs = some n)
      (hbody : c = '"' → hasInterpolation (cs.take (n - 1)) = true) :
      CodeAnswer c cs (.token .template n)
  | openString (hquote : c = '\'' ∨ c = '"') (hend : closingQuote? c cs = none) :
      CodeAnswer c cs (.unterminated .stringLiteral)
  | openShell (hquote : c.val = 0x60) (hend : closingQuote? c cs = none) :
      CodeAnswer c cs (.unterminated .shellString)
  | heredoc {more : Nat} (hangle : c = '<')
      (hlexeme : heredocLexeme? cs = some (.token .heredoc more)) :
      CodeAnswer c cs (.token .heredoc more)
  | openHeredoc {label : Text} (hangle : c = '<')
      (hlexeme : heredocLexeme? cs = some (.unterminated (.heredoc label))) :
      CodeAnswer c cs (.unterminated (.heredoc label))
  | variableName {d : CodePoint} {ds : Text} (hdollar : c = '$') (hcs : cs = d :: ds)
      (hstart : d.isNameStart = true) :
      CodeAnswer c cs (.token .variableName (1 + Text.runLength CodePoint.isNamePart ds))
  /-- A dollar sign that no name follows. -/
  | dollar (hdollar : c = '$') : CodeAnswer c cs (.token .punct 0)
  | identifier (hblank : c.isBlank = false) (hstart : c.isNameStart = true) :
      CodeAnswer c cs (.token .identifier (Text.runLength CodePoint.isNamePart cs))
  | number {n : Nat} (hn : numberRest? c cs = some n) : CodeAnswer c cs (.token .number n)
  /-- An operator or a single mark, where neither a name nor a number starts. -/
  | operator (hstart : c.isNameStart = false) (hnumber : c.isDigit = true → numberRest? c cs = none) :
      CodeAnswer c cs (.token .punct (operatorRest (c :: cs)))

/-- A heredoc that starts is a token, or it is left open. -/
theorem heredocLexeme?_cases {cs : Text} {lexeme : Lexeme} (hlexeme : heredocLexeme? cs = some lexeme) :
    (∃ more, lexeme = .token .heredoc more) ∨ ∃ label, lexeme = .unterminated (.heredoc label) := by
  unfold heredocLexeme? at hlexeme
  split at hlexeme
  · split at hlexeme
    · split at hlexeme
      · cases hlexeme
      · split at hlexeme
        · cases hlexeme
          exact .inl ⟨_, rfl⟩
        · cases hlexeme
          exact .inr ⟨_, rfl⟩
    · cases hlexeme
  · cases hlexeme

/-- The recogniser for code gives no other answers.  The tests are gone through in the order in which it makes
them. -/
theorem codeAnswer_codeLexeme (c : CodePoint) (cs : Text) : CodeAnswer c cs (codeLexeme c cs) := by
  rw [codeLexeme.eq_def]
  extract_lets next
  by_cases hblank : c.isBlank = true
  · rw [if_pos hblank]
    exact .whitespace hblank
  rw [if_neg hblank]
  by_cases hclose : c = '?' ∧ next '>' = true
  · rw [if_pos hclose]
    obtain ⟨rest, rfl⟩ := List.head?_eq_some_iff.mp (of_decide_eq_true hclose.2)
    exact .closeTag hclose.1 rfl
  rw [if_neg hclose]
  by_cases hblock : c = '/' ∧ next '*' = true
  · rw [if_pos hblock]
    obtain ⟨body, rfl⟩ := List.head?_eq_some_iff.mp (of_decide_eq_true hblock.2)
    rw [List.drop_one, List.tail_cons]
    cases hend : blockEnd? body with
    | none => exact .openComment hblock.1 rfl hend
    | some n =>
        dsimp only
        split
        · exact .docComment hblock.1 rfl hend
        · exact .blockComment hblock.1 rfl hend
  rw [if_neg hblock]
  by_cases hattribute : c = '#' ∧ next '[' = true
  · rw [if_pos hattribute]
    obtain ⟨rest, rfl⟩ := List.head?_eq_some_iff.mp (of_decide_eq_true hattribute.2)
    exact .opensAttribute hattribute.1 rfl
  rw [if_neg hattribute]
  by_cases hline : c = '#' ∨ (c = '/' ∧ next '/' = true)
  · rw [if_pos hline]
    refine .lineComment (hline.imp_right fun hslashes => ?_)
    exact ⟨hslashes.1, of_decide_eq_true hslashes.2⟩
  rw [if_neg hline]
  by_cases hsingle : c = '\''
  · rw [if_pos hsingle, quotedLexeme]
    have hother : c ≠ '"' := by
      rw [hsingle]
      decide
    split
    · next n hend => exact .string (.inl hsingle) hend fun hdouble => absurd hdouble hother
    · next hend => exact .openString (.inl hsingle) hend
  rw [if_neg hsingle]
  by_cases hdouble : c = '"'
  · rw [if_pos hdouble, quotedLexeme]
    split
    · next n hend =>
        split
        · next hbody => exact .template (.inl hdouble) hend fun _ => hbody
        · next hbody => exact .string (.inr hdouble) hend fun _ => by simpa using hbody
    · next hend => exact .openString (.inr hdouble) hend
  rw [if_neg hdouble]
  by_cases hshell : c.val = 0x60
  · rw [if_pos hshell, quotedLexeme]
    split
    · next n hend => exact .template (.inr hshell) hend fun hother => absurd hother hdouble
    · next hend => exact .openShell hshell hend
  rw [if_neg hshell]
  split
  · next lexeme hheredoc =>
      split at hheredoc
      · next hangle =>
          rcases heredocLexeme?_cases hheredoc with ⟨more, rfl⟩ | ⟨label, rfl⟩
          · exact .heredoc hangle hheredoc
          · exact .openHeredoc hangle hheredoc
      · cases hheredoc
  by_cases hdollar : c = '$'
  · rw [if_pos hdollar]
    split
    · next d ds =>
        split
        · next hstart => exact .variableName hdollar rfl hstart
        · exact .dollar hdollar
    · exact .dollar hdollar
  rw [if_neg hdollar]
  by_cases hstart : c.isNameStart = true
  · rw [if_pos hstart]
    exact .identifier (by simpa using hblank) hstart
  rw [if_neg hstart]
  split
  · next n hnumber =>
      split at hnumber
      · exact .number hnumber
      · cases hnumber
  · next hnumber =>
      refine .operator (by simpa using hstart) fun hdigit => ?_
      rw [hdigit, Bool.true_or, if_pos rfl] at hnumber
      exact hnumber

end HookAtlas.Php
