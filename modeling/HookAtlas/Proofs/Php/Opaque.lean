/-
# Opaque tokens end at their first terminator

A recogniser answers with a token that ends where its kind demands, or with what the source leaves
open.  `Lexeme.IsRight` says so of one answer, and each branch of the recognisers is shown to give such
answers from the search that it makes.  A run of the lexer consists of such answers, so the statement
about all tokens of a source needs no induction of its own.

Kinds whose extent carries no terminator, such as names and numbers, are not restricted here.
-/

import HookAtlas.Proofs.Php.Answers
import HookAtlas.Proofs.Php.Extent
import HookAtlas.Proofs.Php.Lossless

namespace HookAtlas.Php

/-! ## Right answers -/

/-- Where a token of a kind has to end.  The text behind it decides together with its own, because the
end of a line comment or of text outside tags is no part of the token. -/
def EndsAtTerminator (kind : TokenKind) (text after : Text) : Prop :=
  match kind with
  | .string | .template => IsQuoted text after
  | .docComment => IsBlockComment text after
  | .comment => IsBlockComment text after ∨ IsLineComment text after
  | .heredoc => IsHeredoc text after
  | .inlineHtml => IsInlineHtml text after
  | _ => True

/-- What the rest of a source leaves open: it begins with an opener whose terminator never comes. -/
def LeavesOpen : Unterminated → Text → Prop
  | .blockComment, rest => ∃ body, rest = Text.ofChars ['/', '*'] ++ body ∧
      NeverStops ClosesBlock (Text.ofChars ['/', '*']) body
  | .stringLiteral, rest => ∃ (quote : CodePoint) (body : Text),
      (quote = '\'' ∨ quote = '"') ∧ rest = quote :: body ∧ NeverStops (ClosesQuote quote) [quote] body
  | .shellString, rest => ∃ quote body, quote.val = 0x60 ∧ rest = quote :: body ∧
      NeverStops (ClosesQuote quote) [quote] body
  | .heredoc label, rest => ∃ opener body, OpensHeredoc label opener ∧ rest = opener ++ body ∧
      NeverStops (ClosesHeredoc label) opener body

/-- Nothing is left open at the end of a source. -/
theorem not_leavesOpen_nil (what : Unterminated) : ¬ LeavesOpen what [] := by
  cases what with
  | blockComment =>
      rintro ⟨body, hempty, -⟩
      cases hempty
  | stringLiteral =>
      rintro ⟨quote, body, -, hempty, -⟩
      cases hempty
  | shellString =>
      rintro ⟨quote, body, -, hempty, -⟩
      cases hempty
  | heredoc label =>
      rintro ⟨opener, body, ⟨blanks, mark, lineBreak, rfl, -⟩, hempty, -⟩
      cases hempty

/-- An answer of a recogniser is right: the token ends where its kind demands, or the rest of the source
does leave open what is reported. -/
def Lexeme.IsRight (c : CodePoint) (cs : Text) : Lexeme → Prop
  | .token kind more => EndsAtTerminator kind (c :: cs.take more) (cs.drop more)
  | .unterminated what => LeavesOpen what (c :: cs)

/-! ## The branches of the recognisers -/

/-- Cut a text behind a body and its terminator. -/
theorem cut_behind_terminator (body terminator after : Text) {n : Nat}
    (hn : n = body.length + terminator.length) :
    (body ++ (terminator ++ after)).take n = body ++ terminator ∧
      (body ++ (terminator ++ after)).drop n = after := by
  rw [hn, ← List.length_append, ← List.append_assoc]
  exact ⟨List.take_left, List.drop_left⟩

theorem trailingBackslashes_quote {quote : CodePoint} (hquote : IsQuote quote) :
    Text.trailingBackslashes [quote] = 0 := by
  rw [← List.nil_append [quote], Text.trailingBackslashes_append_singleton, if_neg]
  rintro rfl
  rcases hquote with hsingle | hdouble | hbacktick
  · exact absurd hsingle (by decide)
  · exact absurd hdouble (by decide)
  · exact absurd hbacktick (by decide)

/-- A quoted literal ends at the quote that the search finds. -/
theorem isQuoted_of_closingQuote? {quote : CodePoint} {cs : Text} {n : Nat} (hquote : IsQuote quote)
    (hfound : closingQuote? quote cs = some n) : IsQuoted (quote :: cs.take n) (cs.drop n) := by
  have hfinds := closingQuote?_finds quote cs [quote] (by rw [trailingBackslashes_quote hquote])
  rw [hfound] at hfinds
  obtain ⟨body, after, rfl, hn, hstop⟩ := hfinds
  obtain ⟨after, rfl⟩ := List.head?_eq_some_iff.mp hstop.holds.1
  obtain ⟨hcut, hleft⟩ := cut_behind_terminator body [quote] after hn
  rw [List.singleton_append] at hcut hleft
  rw [hcut, hleft]
  exact ⟨quote, body, hquote, rfl, hstop⟩

/-- Where the search finds no quote there is none. -/
theorem neverStops_of_closingQuote? {quote : CodePoint} {cs : Text} (hquote : IsQuote quote)
    (hmissed : closingQuote? quote cs = none) : NeverStops (ClosesQuote quote) [quote] cs := by
  have hfinds := closingQuote?_finds quote cs [quote] (by rw [trailingBackslashes_quote hquote])
  rw [hmissed] at hfinds
  exact hfinds

/-- A block comment ends at the terminator that the search behind its opener finds. -/
theorem isBlockComment_of_blockEnd? {cs : Text} {n : Nat} (hfound : blockEnd? cs = some n) :
    IsBlockComment (Text.ofChars ['/', '*'] ++ cs.take n) (cs.drop n) := by
  have hfinds := blockEnd?_finds cs (Text.ofChars ['/', '*'])
  rw [hfound] at hfinds
  obtain ⟨body, after, rfl, hn, hstop⟩ := hfinds
  obtain ⟨after, rfl⟩ := hstop.holds
  obtain ⟨hcut, hleft⟩ := cut_behind_terminator body (Text.ofChars ['*', '/']) after hn
  rw [hcut, hleft]
  exact ⟨body, by rw [List.append_assoc], hstop⟩

/-- A line comment ends with its line.  Its first code point is neither a line break nor a question mark,
so neither a break nor a close tag can start there. -/
theorem isLineComment_of_opener {c : CodePoint} {cs : Text}
    (hopener : c = '#' ∨ (c = '/' ∧ cs.head? = some ('/' : CodePoint))) :
    IsLineComment (c :: cs.take (lineCommentLength cs)) (cs.drop (lineCommentLength cs)) := by
  obtain ⟨body, after, hcs, hn, hstop⟩ := lineCommentLength_finds cs [c]
  rw [Nat.add_zero] at hn
  rw [hn]
  rw [hcs] at hopener ⊢
  rw [List.take_left, List.drop_left]
  have hfirst : c ≠ '\r' ∧ c ≠ '\n' ∧ c ≠ '?' := by
    rcases hopener with rfl | ⟨rfl, -⟩
    · decide
    · decide
  refine ⟨?_, ?_, ?_, hstop.holds⟩
  · rcases hopener with rfl | ⟨rfl, hnext⟩
    · exact .inr ⟨body, rfl⟩
    · cases body with
      | nil =>
          obtain ⟨after, rfl⟩ := List.head?_eq_some_iff.mp hnext
          rcases (endsLine_cons_iff _ _).mp hstop.holds with (hfeed | hreturn) | ⟨hmark, -⟩
          · exact absurd hfeed (by decide)
          · exact absurd hreturn (by decide)
          · exact absurd hmark (by decide)
      | cons d body =>
          rw [List.cons_append, List.head?_cons, Option.some.injEq] at hnext
          exact .inl ⟨body, by rw [hnext]; rfl⟩
  · intro d hmem
    rw [List.mem_cons] at hmem
    rcases hmem with rfl | hmem
    · exact ⟨hfirst.1, hfirst.2.1⟩
    · obtain ⟨shorter, more, rfl⟩ := List.append_of_mem hmem
      have hgoes := hstop.first shorter (d :: more) rfl (List.cons_ne_nil d more)
      rw [List.cons_append, endsLine_cons_iff] at hgoes
      exact ⟨fun hreturn => hgoes (.inl (.inr hreturn)), fun hfeed => hgoes (.inl (.inl hfeed))⟩
  · rintro ⟨front, back, htag⟩
    cases front with
    | nil => exact hfirst.2.2 (List.cons.inj htag).1.symm
    | cons d front =>
        have hbody := (List.cons.inj htag).2
        rw [List.append_eq, List.append_eq, List.append_assoc] at hbody
        refine hstop.first front (Text.ofChars ['?', '>'] ++ back) hbody.symm (by simp [Text.ofChars]) ?_
        exact .inr (.inr (.inr ⟨back ++ after, by rw [List.append_assoc]⟩))

/-- The line break of an opening puts what follows at the start of a line. -/
theorem OpensHeredoc.getLast?_eq {label opener : Text} (hopens : OpensHeredoc label opener) :
    opener.getLast? = some ('\n' : CodePoint) := by
  obtain ⟨blanks, mark, lineBreak, rfl, -, -, -, hbreak⟩ := hopens
  have hlast : lineBreak.getLast? = some ('\n' : CodePoint) := by
    simp only [List.mem_cons, List.not_mem_nil, or_false] at hbreak
    rcases hbreak with rfl | rfl
    · rfl
    · rfl
  rw [List.getLast?_append, hlast, Option.some_or]

/-- A closing line is measured through its label. -/
theorem closingWidth_append {label blanks rest : Text} (hname : IsName label)
    (hblanks : ∀ c ∈ blanks, c.isSpaceOrTab = true) :
    closingWidth label (blanks ++ label ++ rest) = (blanks ++ label).length := by
  have houtside : Text.StartsOutside CodePoint.isSpaceOrTab (label ++ rest) := by
    obtain ⟨c, cs, rfl, hstart, -⟩ := hname
    exact Text.startsOutside_cons.mpr (isSpaceOrTab_eq_false_of_isNameStart hstart)
  rw [closingWidth, List.append_assoc, Text.runLength_append hblanks houtside, List.length_append]

/-- A heredoc ends at the label of the closing line that the search behind its opening finds. -/
theorem heredocLexeme?_isRight {cs : Text} {lexeme : Lexeme} (hfound : heredocLexeme? cs = some lexeme) :
    lexeme.IsRight '<' cs := by
  rw [heredocLexeme?.eq_def] at hfound
  split at hfound
  · next b c rest =>
      split at hfound
      · next hangles =>
          obtain ⟨rfl, rfl⟩ := hangles
          split at hfound
          · cases hfound
          · next label size hstart =>
              obtain ⟨opened, body, rfl, rfl, hopens⟩ := heredocStart?_opens hstart
              have hname : IsName label := by
                obtain ⟨blanks, mark, lineBreak, -, -, hname, -⟩ := hopens
                exact hname
              have hfinds := heredocEnd?_finds hname body _ hopens.getLast?_eq
              rw [List.drop_left] at hfound
              split at hfound
              · next n hend =>
                  rw [hend] at hfinds
                  obtain ⟨text, after, rfl, hn, hstop⟩ := hfinds
                  obtain ⟨-, blanks, tail, rfl, hblanks, houtside⟩ := hstop.holds
                  rw [closingWidth_append hname hblanks] at hn
                  rw [Option.some.injEq] at hfound
                  have hsize : 2 + opened.length + n =
                      (Text.ofChars ['<', '<'] ++ opened ++ text).length +
                        (blanks ++ label).length := by
                    simp only [hn, List.length_append, Text.ofChars, List.length_map,
                      List.length_cons, List.length_nil]
                    omega
                  obtain ⟨hcut, hleft⟩ := cut_behind_terminator _ (blanks ++ label) tail hsize
                  have hrest : CodePoint.ofChar '<' :: CodePoint.ofChar '<' ::
                      (opened ++ (text ++ (blanks ++ label ++ tail))) =
                      Text.ofChars ['<', '<'] ++ opened ++ text ++ (blanks ++ label ++ tail) := by
                    simp only [Text.ofChars, List.map_cons, List.map_nil, List.append_assoc,
                      List.cons_append, List.nil_append]
                  rw [← hfound, Lexeme.IsRight, hrest, hcut, hleft]
                  exact ⟨label, _, text, blanks, hopens, rfl, hblanks, houtside, hstop⟩
              · next hmissed =>
                  rw [hmissed] at hfinds
                  rw [Option.some.injEq] at hfound
                  rw [← hfound]
                  exact ⟨_, body, hopens, rfl, hfinds⟩
      · cases hfound
  · cases hfound

/-- Every answer of the recogniser for code is right. -/
theorem codeLexeme_isRight (c : CodePoint) (cs : Text) : (codeLexeme c cs).IsRight c cs := by
  have hcomment {body : Text} {n : Nat} (hslash : c = '/') (hcs : cs = CodePoint.ofChar '*' :: body)
      (hend : blockEnd? body = some n) :
      IsBlockComment (c :: cs.take (1 + n)) (cs.drop (1 + n)) := by
    rw [hslash, hcs, Nat.add_comm, List.take_succ_cons, List.drop_succ_cons]
    exact isBlockComment_of_blockEnd? hend
  have hanswer := codeAnswer_codeLexeme c cs
  generalize codeLexeme c cs = lexeme at hanswer ⊢
  cases hanswer with
  | docComment hslash hcs hend => exact hcomment hslash hcs hend
  | blockComment hslash hcs hend => exact .inl (hcomment hslash hcs hend)
  | @openComment body hslash hcs hend =>
      have hnever := blockEnd?_finds body (Text.ofChars ['/', '*'])
      rw [hend] at hnever
      exact ⟨body, by rw [hslash, hcs]; rfl, hnever⟩
  | lineComment hopener => exact .inr (isLineComment_of_opener hopener)
  | string hquote hend => exact isQuoted_of_closingQuote? (hquote.imp_right .inl) hend
  | template hquote hend => exact isQuoted_of_closingQuote? (.inr hquote) hend
  | openString hquote hend =>
      exact ⟨c, cs, hquote, rfl, neverStops_of_closingQuote? (hquote.imp_right .inl) hend⟩
  | openShell hquote hend =>
      exact ⟨c, cs, hquote, rfl, neverStops_of_closingQuote? (.inr (.inr hquote)) hend⟩
  | heredoc hangle hlexeme =>
      rw [hangle]
      exact heredocLexeme?_isRight hlexeme
  | openHeredoc hangle hlexeme =>
      rw [hangle]
      exact heredocLexeme?_isRight hlexeme
  -- The kinds that are left have no terminator.
  | _ => exact trivial

/-- Every answer of the recogniser for text outside tags is right, and it always is a token. -/
theorem htmlLexeme_isRight (c : CodePoint) (cs : Text) :
    (htmlLexeme c cs).IsRight c cs ∧ ∃ kind more, htmlLexeme c cs = .token kind more := by
  rw [htmlLexeme]
  split
  · exact ⟨trivial, _, _, rfl⟩
  · next hnone =>
      refine ⟨?_, _, _, rfl⟩
      have hgoes : ¬ EndsHtml [] (c :: cs) := by
        rintro (hempty | htag)
        · cases hempty
        · rw [← openTag?_isSome_iff, hnone] at htag
          cases htag
      obtain ⟨body, after, hcs, hn, hstop⟩ :=
        Finds.later_some hgoes (htmlLength_finds cs [c])
      have hlength : htmlLength cs + 1 = body.length := hn
      rw [Lexeme.IsRight, ← List.take_succ_cons, ← @List.drop_succ_cons _ c, hlength, hcs,
        List.take_left, List.drop_left]
      exact hstop

/-! ## All tokens of a source -/

/-- The recogniser of either mode is right. -/
theorem lexeme_isRight (mode : Mode) (c : CodePoint) (cs : Text) :
    (mode.lexeme c cs).IsRight c cs := by
  cases mode with
  | code => exact codeLexeme_isRight c cs
  | html => exact (htmlLexeme_isRight c cs).1

/-- Every token of a source ends where its kind demands, judged by the source behind it; and lexing
reports an error exactly where it has reached code whose rest begins with an opener that is never
terminated.  The error names what is left open there. -/
theorem lex_opaque (source : Text) :
    (∀ before token others, (lex source).tokens = before ++ token :: others →
      ∃ after, source = coveredText before ++ token.text ++ after ∧
        EndsAtTerminator token.kind token.text after) ∧
    ∃ rest, source = coveredText (lex source).tokens ++ rest ∧
      ((lex source).error.isSome = true ↔
        (startMode source).afterTokens (lex source).tokens = .code ∧ ∃ what, LeavesOpen what rest) ∧
      ∀ error, (lex source).error = some error → LeavesOpen error.what rest := by
  constructor
  · intro before token others hsplit
    obtain ⟨c, cs, more, hsource, hlexeme, htoken, -⟩ := lexFrom_split hsplit
    have hright := lexeme_isRight ((startMode source).afterTokens before) c cs
    rw [hlexeme] at hright
    have htext : token.text = c :: cs.take more := congrArg Token.text htoken
    refine ⟨cs.drop more, ?_, ?_⟩
    · rw [htext, List.append_assoc, List.cons_append, List.take_append_drop]
      exact hsource
    · rw [htext]
      exact hright
  · obtain ⟨rest, hsource, hend⟩ := lexFrom_stopped (startMode source) 1 source
    refine ⟨rest, hsource, ?_⟩
    rcases hend with ⟨rfl, hnone⟩ | ⟨c, cs, what, rfl, hlexeme, hsome⟩
    · rw [lex, hnone]
      refine ⟨⟨fun herror => ?_, ?_⟩, fun error herror => ?_⟩
      · cases herror
      · rintro ⟨-, what, hopen⟩
        exact absurd hopen (not_leavesOpen_nil what)
      · cases herror
    · have hopen := lexeme_isRight
        ((startMode source).afterTokens (lexFrom (startMode source) 1 source).tokens) c cs
      rw [hlexeme] at hopen
      have hmode : (startMode source).afterTokens (lex source).tokens = .code := by
        cases hreached : (startMode source).afterTokens (lex source).tokens with
        | code => rfl
        | html =>
            obtain ⟨kind, more, htoken⟩ := (htmlLexeme_isRight c cs).2
            rw [← lex, hreached, Mode.lexeme, htoken] at hlexeme
            cases hlexeme
      rw [lex, hsome]
      refine ⟨⟨fun _ => ⟨hmode, what, hopen⟩, fun _ => rfl⟩, fun error herror => ?_⟩
      rw [Option.some.injEq] at herror
      rw [← herror]
      exact hopen

end HookAtlas.Php
