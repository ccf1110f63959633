/-
# Identifiers are whole words

An identifier takes all the name characters behind its first one, and so does a variable.  What comes before an
identifier is another matter: the lexer may stop within a row of name characters and start an identifier there.  It
does so behind a number, and behind white space beyond ASCII, which counts as white space and as a part of names.
No other kind of token ends in that way, each for a reason of its own.

So, these two cases apart, the function of a call site is never a part of a longer name.
-/

import HookAtlas.Proofs.Php.LiteralCall
import HookAtlas.Proofs.Php.Tags
import Mathlib.Data.List.Basic

namespace HookAtlas

namespace CodePoint

theorem isNamePart_of_isNameStart {c : CodePoint} (hstart : c.isNameStart = true) :
    c.isNamePart = true := by
  rw [isNamePart, hstart, Bool.true_or]

/-- White space that may stand in a name lies beyond ASCII. -/
theorem le_val_of_isBlank {c : CodePoint} (hblank : c.isBlank = true) (hpart : c.isNamePart = true) :
    0x80 ≤ c.val := by
  simp only [isBlank, isUnicodeSpace, isNamePart, isNameStart, isAsciiLetter, isAsciiDigit,
    Bool.or_eq_true, Bool.and_eq_true, decide_eq_true_eq, beq_iff_eq] at hblank hpart
  omega

theorem isDecimal_of_isAsciiDigit {c : CodePoint} (hdigit : c.isAsciiDigit = true) :
    c.isDecimal = true := by
  simp only [isAsciiDigit, Bool.and_eq_true, decide_eq_true_eq] at hdigit
  rw [isDecimal, List.any_eq_true]
  refine ⟨0x30, by decide, ?_⟩
  rw [Bool.and_eq_true, decide_eq_true_eq, decide_eq_true_eq]
  omega

end CodePoint

namespace Php

/-! ## How tokens border on names -/

/-- What is known of the two sides of the end of a token, as far as names are concerned. -/
def BordersOnNames (kind : TokenKind) (text after : Text) : Prop :=
  match kind with
  | .identifier =>
      (∀ c ∈ text, c.isNamePart = true) ∧ Text.StartsOutside CodePoint.isNamePart after
  | .variableName => Text.StartsOutside CodePoint.isNamePart after
  | .whitespace => ∀ c ∈ text, c.isBlank = true
  | .punct => Text.EndsOutside CodePoint.isNamePart text
  | .openTag =>
      Text.EndsOutside CodePoint.isNamePart text ∨ ∀ c, after.head? = some c → c.isBlank = true
  | _ => True

/-- The same of an answer of a recogniser. -/
def Lexeme.BordersOnNames (c : CodePoint) (cs : Text) : Lexeme → Prop
  | .token kind more => Php.BordersOnNames kind (c :: cs.take more) (cs.drop more)
  | .unterminated _ => True

/-- Where neither a name nor a number starts there is no name character. -/
theorem isNamePart_eq_false {c : CodePoint} {cs : Text} (hstart : c.isNameStart = false)
    (hnumber : c.isDigit = true → numberRest? c cs = none) : c.isNamePart = false := by
  rw [CodePoint.isNamePart, hstart, Bool.false_or, Bool.eq_false_iff]
  intro hdigit
  have hdecimal := CodePoint.isDecimal_of_isAsciiDigit hdigit
  have hnone := hnumber (by rw [CodePoint.isDigit, hdecimal, Bool.true_or])
  unfold numberRest? at hnone
  rw [hdecimal] at hnone
  grind

/-- No operator ends with a name character, nor does a single mark. -/
theorem endsOutside_operator {c : CodePoint} (houtside : c.isNamePart = false) (cs : Text) :
    Text.EndsOutside CodePoint.isNamePart (c :: cs.take (operatorRest (c :: cs))) := by
  have hmarks : ∀ operator ∈ operators, operator ≠ [] ∧
      ((Text.ofChars operator).getLast?.all fun d => !d.isNamePart) = true := by decide
  rw [operatorRest]
  split
  · next operator hfound =>
      obtain ⟨hsome, hlast⟩ := hmarks operator (List.mem_of_find?_eq_some hfound)
      have hmatches : (Text.ofChars operator).isPrefixOf (c :: cs) = true :=
        @List.find?_some _ (fun operator => (Text.ofChars operator).isPrefixOf (c :: cs)) _ _ hfound
      have hprefix := List.isPrefixOf_iff_prefix.mp hmatches
      have hlength : operator.length - 1 + 1 = (Text.ofChars operator).length := by
        have hpos := List.length_pos_iff.mpr hsome
        rw [Text.ofChars, List.length_map]
        omega
      rw [← List.take_succ_cons, hlength, ← List.prefix_iff_eq_take.mp hprefix]
      intro d hd
      rw [hd, Option.all_some] at hlast
      simpa using hlast
  · rw [List.take_zero]
    exact Text.endsOutside_singleton houtside

/-- Every answer of the recogniser for code borders on names as its kind says. -/
theorem codeLexeme_bordersOnNames (c : CodePoint) (cs : Text) :
    (codeLexeme c cs).BordersOnNames c cs := by
  have hanswer := codeAnswer_codeLexeme c cs
  generalize codeLexeme c cs = lexeme at hanswer ⊢
  cases hanswer with
  | whitespace hblank =>
      intro d hmem
      rcases List.mem_cons.mp hmem with rfl | hmem
      · exact hblank
      · exact Text.mem_take_runLength hmem
  | opensAttribute hmark hcs =>
      subst hcs
      intro d hlast
      have hbracket : CodePoint.ofChar '[' = d := Option.some.inj hlast
      rw [← hbracket]
      decide
  | @variableName d ds hdollar hcs hstart =>
      rw [hcs, Nat.add_comm]
      exact Text.startsOutside_drop_runLength CodePoint.isNamePart ds
  | dollar hdollar =>
      rw [hdollar]
      exact Text.endsOutside_singleton (by decide)
  | identifier hblank hstart =>
      refine ⟨fun d hmem => ?_, Text.startsOutside_drop_runLength CodePoint.isNamePart cs⟩
      rcases List.mem_cons.mp hmem with rfl | hmem
      · exact CodePoint.isNamePart_of_isNameStart hstart
      · exact Text.mem_take_runLength hmem
  | operator hstart hnumber =>
      exact endsOutside_operator (isNamePart_eq_false hstart hnumber) cs
  | _ => exact trivial

/-- The short open tag ends with an equals sign, and the long one stands before white space or the end. -/
theorem openTag?_eq_some {c : CodePoint} {cs : Text} {n : Nat} (hfound : openTag? (c :: cs) = some n) :
    ∃ opener rest, cs = opener ++ rest ∧ n = opener.length + 1 ∧
      (opener.getLast? = some (CodePoint.ofChar '=') ∨ ∀ d, rest.head? = some d → d.isBlank = true) := by
  rw [openTag?] at hfound
  split at hfound
  · obtain ⟨m, hm, rfl⟩ := Option.map_eq_some_iff.mp hfound
    unfold openTagRest? at hm
    split at hm
    · next q p h r rest =>
        split at hm
        · cases hm
        · split at hm
          · next hequals =>
              cases hm
              exact ⟨[q, p], h :: r :: rest, rfl, rfl, .inl (by rw [hequals]; rfl)⟩
          · split at hm
            · next hlong =>
                cases hm
                refine ⟨[q, p, h, r], rest, rfl, rfl, .inr fun d hd => ?_⟩
                have hend := hlong.2.2.2
                rw [hd] at hend
                exact hend
            · cases hm
    · next q p rest _ =>
        split at hm
        · next hequals =>
            cases hm
            exact ⟨[q, p], rest, rfl, rfl, .inl (by rw [hequals.2]; rfl)⟩
        · cases hm
    · cases hm
  · cases hfound

theorem htmlLexeme_bordersOnNames (c : CodePoint) (cs : Text) :
    (htmlLexeme c cs).BordersOnNames c cs := by
  rw [htmlLexeme]
  split
  · next n hfound =>
      obtain ⟨opener, rest, rfl, rfl, hend⟩ := openTag?_eq_some hfound
      rw [Lexeme.BordersOnNames, Nat.add_sub_cancel, List.take_left, List.drop_left]
      refine hend.imp_left fun hequals d hd => ?_
      rw [List.getLast?_cons, hequals, Option.getD_some, Option.some.injEq] at hd
      rw [← hd]
      decide
  · exact trivial

theorem lexeme_bordersOnNames (mode : Mode) (c : CodePoint) (cs : Text) :
    (mode.lexeme c cs).BordersOnNames c cs := by
  cases mode with
  | code => exact codeLexeme_bordersOnNames c cs
  | html => exact htmlLexeme_bordersOnNames c cs

/-! ## Where an identifier may start within a name -/

/-- Of the tokens in code, only a number and white space beyond ASCII end with a name character before an
identifier.  The others end with a mark, or take all name characters, or stand before what starts no name. -/
theorem eq_number_or_whitespace {kind : TokenKind} {text after : Text} {last next : CodePoint}
    (hright : EndsAtTerminator kind text after) (hborders : BordersOnNames kind text after)
    (hcode : kind.modeBehind = .code) (hlast : text.getLast? = some last)
    (hpart : last.isNamePart = true) (hnext : after.head? = some next)
    (hstart : next.isNameStart = true) (hblank : next.isBlank = false) :
    kind = .number ∨ kind = .whitespace ∧ 0x80 ≤ last.val := by
  -- What ends before anything but a name, or with a mark, is ruled out by the identifier that comes next.
  have hname : ¬ Text.StartsOutside CodePoint.isNamePart after := by
    intro houtside
    have hother := houtside next hnext
    rw [CodePoint.isNamePart_of_isNameStart hstart] at hother
    cases hother
  have hmark (mark : CodePoint) (houtside : mark.isNamePart = false) : text.getLast? ≠ some mark := by
    rintro hmark
    rw [hlast, Option.some.injEq] at hmark
    rw [hmark, houtside] at hpart
    cases hpart
  have hquoted : ¬ IsQuoted text after := by
    rintro ⟨quote, body, hquote, htext, -⟩
    refine hmark quote ?_ (by rw [htext, List.getLast?_concat])
    rcases hquote with rfl | rfl | hshell
    · decide
    · decide
    · simp [CodePoint.isNamePart, CodePoint.isNameStart, CodePoint.isAsciiLetter,
        CodePoint.isAsciiDigit, hshell]
  have hblock : ¬ IsBlockComment text after := by
    rintro ⟨body, htext, -⟩
    refine hmark '/' (by decide) ?_
    rw [htext, List.getLast?_append]
    rfl
  have hline : ¬ IsLineComment text after := by
    rintro ⟨-, -, -, hend⟩
    obtain ⟨rest, rfl⟩ := List.head?_eq_some_iff.mp hnext
    rcases (endsLine_cons_iff next rest).mp hend with (rfl | rfl) | ⟨rfl, -⟩
    · exact absurd hstart (by decide)
    · exact absurd hstart (by decide)
    · exact absurd hstart (by decide)
  cases kind with
  | identifier => exact absurd hborders.2 hname
  | variableName => exact absurd hborders hname
  | string => exact absurd hright hquoted
  | template => exact absurd hright hquoted
  | heredoc =>
      obtain ⟨-, -, -, -, -, -, -, houtside, -⟩ := hright
      exact absurd houtside hname
  | number => exact .inl rfl
  | punct =>
      have houtside := hborders last hlast
      rw [hpart] at houtside
      cases houtside
  | whitespace =>
      have hspace := hborders last (List.mem_of_getLast? hlast)
      exact .inr ⟨rfl, CodePoint.le_val_of_isBlank hspace hpart⟩
  | comment =>
      rcases hright with hcomment | hcomment
      · exact absurd hcomment hblock
      · exact absurd hcomment hline
  | docComment => exact absurd hright hblock
  | openTag =>
      rcases hborders with houtside | hspace
      · have hother := houtside last hlast
        rw [hpart] at hother
        cases hother
      · rw [hspace next hnext] at hblank
        cases hblank
  | closeTag => cases hcode
  | inlineHtml => cases hcode

/-! ## All identifiers of a source -/

/-- What comes directly before may end within a name: a number, or white space that ends beyond ASCII. -/
def MayEndInName (before : List Token) : Prop :=
  ∃ last, before.getLast? = some last ∧
    (last.kind = .number ∨
      last.kind = .whitespace ∧ ∃ c, last.text.getLast? = some c ∧ 0x80 ≤ c.val)

/-- What stands between two texts is part of a longer row of name characters. -/
def StandsInLongerName (before after : Text) : Prop :=
  ∃ front left right back, before = front ++ left ∧ after = right ++ back ∧ left ++ right ≠ [] ∧
    ∀ c ∈ left ++ right, c.isNamePart = true

/-- A row of name characters that has no name character on either side is as long as it gets. -/
theorem not_standsInLongerName {before after : Text}
    (hbefore : Text.EndsOutside CodePoint.isNamePart before)
    (hafter : Text.StartsOutside CodePoint.isNamePart after) : ¬ StandsInLongerName before after := by
  rintro ⟨front, left, right, back, rfl, rfl, hsome, hparts⟩
  refine hsome (List.append_eq_nil_iff.mpr ⟨?_, ?_⟩)
  · rcases List.eq_nil_or_concat left with rfl | ⟨others, c, rfl⟩
    · rfl
    · rw [List.concat_eq_append] at hbefore hparts
      have houtside := hbefore c (by rw [← List.append_assoc, List.getLast?_concat])
      rw [hparts c (by simp)] at houtside
      cases houtside
  · cases right with
    | nil => rfl
    | cons c others =>
        have houtside := hafter c rfl
        rw [hparts c (by simp)] at houtside
        cases houtside

section Run

variable {mode : Mode} {line : Int} {source : Text} {before after : List Token} {token : Token}

/-- Every token of a run ends where its kind demands, and borders on names as its kind says. -/
theorem sides_of_split (hsplit : (lexFrom mode line source).tokens = before ++ token :: after) :
    ∃ rest, source = coveredText before ++ token.text ++ rest ∧
      EndsAtTerminator token.kind token.text rest ∧ BordersOnNames token.kind token.text rest := by
  obtain ⟨c, cs, more, hsource, hlexeme, htoken, -⟩ := lexFrom_split hsplit
  have hright := lexeme_isRight (mode.afterTokens before) c cs
  have hborders := lexeme_bordersOnNames (mode.afterTokens before) c cs
  rw [hlexeme] at hright hborders
  have htext : token.text = c :: cs.take more := congrArg Token.text htoken
  refine ⟨cs.drop more, ?_, ?_, ?_⟩
  · rw [htext, List.append_assoc, List.cons_append, List.take_append_drop]
    exact hsource
  · rw [htext]
    exact hright
  · rw [htext]
    exact hborders

/-- An identifier is found in code, where a name starts and no white space. -/
theorem identifier_of_split (hsplit : (lexFrom mode line source).tokens = before ++ token :: after)
    (hkind : token.kind = .identifier) :
    mode.afterTokens before = .code ∧
      ∃ c cs, source = coveredText before ++ c :: cs ∧ c.isBlank = false ∧ c.isNameStart = true := by
  obtain ⟨c, cs, more, hsource, hlexeme, -, -⟩ := lexFrom_split hsplit
  have hinside : ¬ token.kind.IsOutside := by
    rw [hkind]
    exact not_or.mpr ⟨TokenKind.noConfusion, TokenKind.noConfusion⟩
  have hmode := afterTokens_eq_code_of_split hsplit hinside
  have hanswer := codeAnswer_codeLexeme c cs
  rw [hmode, Mode.lexeme, hkind] at hlexeme
  rw [hlexeme] at hanswer
  cases hanswer with
  | identifier hblank hstart => exact ⟨hmode, c, cs, hsource, hblank, hstart⟩

/-- An identifier starts behind a name character in two cases only. -/
theorem mayEndInName_of_split (hsplit : (lexFrom mode line source).tokens = before ++ token :: after)
    (hkind : token.kind = .identifier) {c : CodePoint} (hlast : (coveredText before).getLast? = some c)
    (hpart : c.isNamePart = true) : MayEndInName before := by
  obtain ⟨hmode, d, ds, hsource, hblank, hstart⟩ := identifier_of_split hsplit hkind
  rcases List.eq_nil_or_concat before with rfl | ⟨earlier, last, rfl⟩
  · cases hlast
  -- The identifier starts where the token before it ends, so that token has the last name character.
  rw [List.concat_eq_append] at hsplit hmode hsource hlast ⊢
  rw [List.append_assoc, List.singleton_append] at hsplit
  obtain ⟨rest, hcut, hright, hborders⟩ := sides_of_split hsplit
  have hcovered : coveredText (earlier ++ [last]) = coveredText earlier ++ last.text := by
    rw [coveredText, List.flatMap_append, List.flatMap_singleton]
    rfl
  have htext : last.text.getLast? = some c := by
    have hsome : last.text ≠ [] :=
      text_ne_nil_of_mem_lexFrom (hsplit ▸ List.mem_append_right earlier List.mem_cons_self)
    rw [← hlast, hcovered, List.getLast?_append_of_ne_nil _ hsome]
  have hrest : rest = d :: ds := by
    rw [hsource, hcovered] at hcut
    exact (List.append_cancel_left hcut).symm
  rw [afterTokens_of_split hsplit] at hmode
  have hfound := eq_number_or_whitespace hright hborders hmode htext hpart
    (by rw [hrest, List.head?_cons]) hstart hblank
  exact ⟨last, List.getLast?_concat, hfound.imp_right fun hspace => ⟨hspace.1, c, htext, hspace.2⟩⟩

end Run

/-- Identifiers and variables are whole words.  Behind them the source goes on with something other than a name
character, and before an identifier it has a name character only where a number comes before, or white space that
ends beyond ASCII.  A call site therefore starts at an identifier that is its function, and unless one of these
comes before, the function is no part of a longer row of name characters. -/
theorem tokenize_words (source : Text) :
    (∀ before token after, tokenize source = before ++ token :: after →
      ∃ rest, source = coveredText before ++ token.text ++ rest ∧
        (token.kind = .identifier ∨ token.kind = .variableName →
          Text.StartsOutside CodePoint.isNamePart rest) ∧
        (token.kind = .identifier →
          Text.EndsOutside CodePoint.isNamePart (coveredText before) ∨ MayEndInName before)) ∧
    ∀ callees,
      (∀ before token after site, tokenize source = before ++ token :: after →
        callSiteAt? callees token after = some site →
        ∃ rest, source = coveredText before ++ site.callee ++ rest ∧
          (∀ c ∈ site.callee, c.isNamePart = true) ∧
          (StandsInLongerName (coveredText before) rest → MayEndInName before)) ∧
      ∀ site ∈ callSites callees (tokenize source),
        ∃ before token after, tokenize source = before ++ token :: after ∧
          callSiteAt? callees token after = some site := by
  have hwords : ∀ before token after, tokenize source = before ++ token :: after →
      token.kind = .identifier →
      Text.EndsOutside CodePoint.isNamePart (coveredText before) ∨ MayEndInName before := by
    intro before token after hsplit hkind
    by_cases houtside : Text.EndsOutside CodePoint.isNamePart (coveredText before)
    · exact .inl houtside
    · simp only [Text.EndsOutside, not_forall, Bool.not_eq_false] at houtside
      obtain ⟨c, hlast, hpart⟩ := houtside
      exact .inr (mayEndInName_of_split hsplit hkind hlast hpart)
  constructor
  · intro before token after hsplit
    obtain ⟨rest, hsource, -, hborders⟩ := sides_of_split hsplit
    refine ⟨rest, hsource, ?_, hwords before token after hsplit⟩
    rintro (hkind | hkind)
    · rw [hkind] at hborders
      exact hborders.2
    · rw [hkind] at hborders
      exact hborders
  · intro callees
    refine ⟨fun before token after site hsplit hfound => ?_,
      fun site hmem => exists_split_of_mem_callSites hmem⟩
    obtain ⟨hkind, htext, -⟩ := callSiteAt?_eq_some hfound
    obtain ⟨rest, hsource, -, hborders⟩ := sides_of_split hsplit
    rw [hkind, htext] at hborders
    rw [htext] at hsource
    refine ⟨rest, hsource, hborders.1, fun hlonger => ?_⟩
    rcases hwords before token after hsplit hkind with houtside | hmay
    · exact absurd hlonger (not_standsInLongerName houtside hborders.2)
    · exact hmay

/-- Two calls in a row, the first of them directly behind a digit. -/
def numberedSource : Text :=
  "7do_action('a');do_action('b')"

/-- The first function stands behind a number, in the row of name characters that starts there.  The second one is
all of its row. -/
theorem tokenize_words_numberedSource :
    (∃ before token after site rest, tokenize numberedSource = before ++ token :: after ∧
      callSiteAt? .standard token after = some site ∧ site.hookName = "a" ∧
      numberedSource = coveredText before ++ site.callee ++ rest ∧
      StandsInLongerName (coveredText before) rest ∧ MayEndInName before) ∧
    ∃ before token after site rest, tokenize numberedSource = before ++ token :: after ∧
      callSiteAt? .standard token after = some site ∧ site.hookName = "b" ∧
      numberedSource = coveredText before ++ site.callee ++ rest ∧
      ¬ StandsInLongerName (coveredText before) rest := by
  obtain ⟨hsides, hcalls⟩ := tokenize_words numberedSource
  have hfirst : tokenize numberedSource = [⟨.number, "7", 1⟩] ++ ⟨.identifier, "do_action", 1⟩ ::
      [⟨.punct, "(", 1⟩, ⟨.string, "'a'", 1⟩, ⟨.punct, ")", 1⟩, ⟨.punct, ";", 1⟩,
        ⟨.identifier, "do_action", 1⟩, ⟨.punct, "(", 1⟩, ⟨.string, "'b'", 1⟩, ⟨.punct, ")", 1⟩] := by cbv
  have hsecond : tokenize numberedSource = [⟨.number, "7", 1⟩, ⟨.identifier, "do_action", 1⟩,
      ⟨.punct, "(", 1⟩, ⟨.string, "'a'", 1⟩, ⟨.punct, ")", 1⟩, ⟨.punct, ";", 1⟩] ++
        ⟨.identifier, "do_action", 1⟩ ::
          [⟨.punct, "(", 1⟩, ⟨.string, "'b'", 1⟩, ⟨.punct, ")", 1⟩] := hfirst
  constructor
  · obtain ⟨rest, hsource, -, hmay⟩ := (hcalls .standard).1 _ _ _
      ⟨"do_action", "a", .action, 1⟩ hfirst (by cbv)
    have hlonger : StandsInLongerName (coveredText [⟨.number, "7", 1⟩]) rest :=
      ⟨[], "7", [], rest, rfl, rfl, by decide, by decide⟩
    exact ⟨_, _, _, _, rest, hfirst, by cbv, rfl, hsource, hlonger, hmay hlonger⟩
  · obtain ⟨rest, hsource, -, hmay⟩ := (hcalls .standard).1 _ _ _
      ⟨"do_action", "b", .action, 1⟩ hsecond (by cbv)
    refine ⟨_, _, _, _, rest, hsecond, by cbv, rfl, hsource, fun hlonger => ?_⟩
    obtain ⟨last, hlast, hkind⟩ := hmay hlonger
    cases hlast
    rcases hkind with hnumber | ⟨hspace, -⟩
    · cases hnumber
    · cases hspace

end Php

end HookAtlas
