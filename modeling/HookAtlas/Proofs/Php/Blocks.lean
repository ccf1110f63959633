/-
# Template blocks are lexed one by one

A template is a row of blocks, each of text outside tags and of code up to a close tag.  A block can be lexed
on its own: what follows the block changes none of its tokens, and what follows is lexed as if it were a
source of its own, only further down.  The same holds of the call sites, since no call goes through a close
tag.

The first block must leave nothing open and must end with its close tag.  A close tag swallows a line break
directly behind it, so the block behind it must not start with one, unless one was swallowed already.
-/

import HookAtlas.Proofs.Php.Answers
import HookAtlas.Proofs.Php.CallWindow
import HookAtlas.Proofs.Php.Locality
import HookAtlas.Proofs.Php.Lossless

namespace HookAtlas.Php

/-! ## Further down -/

/-- A token so many lines further down. -/
def Token.below (lines : Int) (token : Token) : Token :=
  { token with line := token.line + lines }

/-- An error so many lines further down. -/
def LexError.below (lines : Int) (error : LexError) : LexError :=
  { error with line := error.line + lines }

/-- A call site so many lines further down. -/
def CallSite.below (lines : Int) (site : CallSite) : CallSite :=
  { site with line := site.line + lines }

/-- A lexing so many lines further down. -/
def Lexing.below (lines : Int) (lexing : Lexing) : Lexing :=
  ⟨lexing.tokens.map (Token.below lines), lexing.error.map (LexError.below lines)⟩

/-- The line on which lexing starts is added to all lines. -/
theorem lexFrom_add (mode : Mode) (line lines : Int) (source : Text) :
    lexFrom mode (line + lines) source = (lexFrom mode line source).below lines := by
  fun_induction lexFrom mode line source with
  | case1 mode line =>
      rw [lexFrom_nil]
      rfl
  | case2 mode line c cs what hlexeme =>
      rw [lexFrom_of_unterminated hlexeme]
      rfl
  | case3 mode line c cs kind more hlexeme text rest ih =>
      have hline : line + lines + text.lineFeeds = line + text.lineFeeds + lines := by omega
      rw [lexFrom_of_token hlexeme, hline, ih]
      rfl

/-! ## The close tag at the end of a block -/

section CloseTag

variable {c : CodePoint} {cs : Text} {more : Nat}

/-- A close tag swallows the line break behind it. -/
theorem codeLexeme_eq_closeTag (hlexeme : codeLexeme c cs = .token .closeTag more) :
    ∃ rest, c = '?' ∧ cs = CodePoint.ofChar '>' :: rest ∧ more = 1 + lineBreakLength rest := by
  have hanswer := codeAnswer_codeLexeme c cs
  rw [hlexeme] at hanswer
  cases hanswer with
  | closeTag hmark hcs => exact ⟨_, hmark, hcs, rfl⟩

/-- A close tag is found between tags only. -/
theorem lexeme_eq_closeTag {mode : Mode} (hlexeme : mode.lexeme c cs = .token .closeTag more) :
    mode = .code ∧ ∃ rest, c = '?' ∧ cs = CodePoint.ofChar '>' :: rest ∧ more = 1 + lineBreakLength rest := by
  cases mode with
  | code => exact ⟨rfl, codeLexeme_eq_closeTag hlexeme⟩
  | html =>
      have hhtml : htmlLexeme c cs = .token .closeTag more := hlexeme
      rw [htmlLexeme] at hhtml
      split at hhtml
      · cases hhtml
      · cases hhtml

end CloseTag

/-- A block was lexed: nothing is left open, and the last token is a close tag. -/
structure Lexing.EndsBlock (lexing : Lexing) : Prop where
  error_eq : lexing.error = none
  last_eq : lexing.tokens.getLast?.map Token.kind = some .closeTag

theorem exists_closedBy_of_endsBlock {mode : Mode} {line : Int} {source : Text}
    (hends : (lexFrom mode line source).EndsBlock) : ∃ t v, source = closedBy t v := by
  obtain ⟨token, hlast, hkind⟩ := Option.map_eq_some_iff.mp hends.last_eq
  obtain ⟨before, hsplit⟩ := List.getLast?_eq_some_iff.mp hlast
  obtain ⟨c, cs, more, hsource, hlexeme, -⟩ := lexFrom_split hsplit
  rw [hkind] at hlexeme
  obtain ⟨-, rest, rfl, rfl, -⟩ := lexeme_eq_closeTag hlexeme
  exact ⟨coveredText before, rest, hsource⟩

/-- Where a token is followed by more text, that text ends the block. -/
theorem endsBlock_of_cons {mode : Mode} {line : Int} {source : Text} {token : Token}
    (hsource : source ≠ [])
    (hends : Lexing.EndsBlock ⟨token :: (lexFrom mode line source).tokens, (lexFrom mode line source).error⟩) :
    (lexFrom mode line source).EndsBlock := by
  refine ⟨hends.error_eq, ?_⟩
  have hlast := hends.last_eq
  have hcovered := (coveredText_eq_iff mode line source).mpr hends.error_eq
  cases htokens : (lexFrom mode line source).tokens with
  | nil =>
      rw [htokens] at hcovered
      exact absurd hcovered.symm hsource
  | cons other tokens =>
      rw [htokens] at hlast
      rw [← hlast, List.getLast?_cons_cons]

/-! ## Lexing on behind a block -/

theorem lineBreakLength_eq_zero {s : Text}
    (hbreak : ¬(Text.ofChars ['\n'] <+: s ∨ Text.ofChars ['\r', '\n'] <+: s)) : lineBreakLength s = 0 := by
  rcases lineBreakLength_cases s with hzero | ⟨lineBreak, rest, hmem, rfl, -⟩
  · exact hzero
  · refine absurd ?_ hbreak
    rcases List.mem_pair.mp hmem with rfl | rfl
    · exact .inl (List.prefix_append _ _)
    · exact .inr (List.prefix_append _ _)

/-- What a close tag swallowed stays the same, and nothing more is swallowed. -/
theorem lineBreakLength_append {v s : Text} (hswallowed : v.drop (lineBreakLength v) = [])
    (hnext : v = [] → lineBreakLength s = 0) : lineBreakLength (v ++ s) = v.length := by
  rcases lineBreakLength_cases v with hzero | ⟨lineBreak, rest, hmem, rfl, hlength⟩
  · rw [hzero, List.drop_zero] at hswallowed
    rw [hswallowed, List.nil_append, hnext hswallowed, List.length_nil]
  · rw [hlength, List.drop_left] at hswallowed
    subst hswallowed
    rcases List.mem_pair.mp hmem with rfl | rfl
    · rfl
    · rfl

/-- The close tag at the end of a block is found whatever follows. -/
theorem lexFrom_closeTag {line : Int} {v rest : Text} (hswallowed : v.drop (lineBreakLength v) = [])
    (hnext : v = [] → lineBreakLength rest = 0) :
    lexFrom .code line (closedBy [] v ++ rest) =
      ⟨⟨.closeTag, closedBy [] v, line⟩ :: (lexFrom .html (line + (closedBy [] v).lineFeeds) rest).tokens,
        (lexFrom .html (line + (closedBy [] v).lineFeeds) rest).error⟩ := by
  have hlexeme : Mode.code.lexeme '?' (CodePoint.ofChar '>' :: (v ++ rest)) =
      .token .closeTag (1 + lineBreakLength (v ++ rest)) := rfl
  rw [lineBreakLength_append hswallowed hnext, Nat.add_comm] at hlexeme
  rw [append_closedBy, closedBy_nil, lexFrom_of_token hlexeme, List.take_succ_cons, List.drop_succ_cons,
    List.take_left, List.drop_left]
  rfl

/-- A token before the end of a block is found whatever follows the block. -/
theorem lexeme_append {mode : Mode} {c : CodePoint} {cs t v : Text} {kind : TokenKind} {more : Nat}
    (hlexeme : mode.lexeme c cs = .token kind more) (htail : cs.drop more = closedBy t v) (rest : Text) :
    mode.lexeme c (cs ++ rest) = .token kind more := by
  have hcs : cs = closedBy (cs.take more ++ t) v := by
    rw [← closedBy_append, ← htail, List.take_append_drop]
  have hwithin : (mode.lexeme c (closedBy (cs.take more ++ t) v)).EndsWithin (cs.take more ++ t).length := by
    have hlength := congrArg List.length htail
    rw [← hcs, hlexeme, Lexeme.EndsWithin, List.length_append, List.length_take]
    simp only [List.length_drop, closedBy, List.length_append, List.length_cons] at hlength
    omega
  have hsame := lexeme_closedBy hwithin (v ++ rest)
  rw [← append_closedBy, ← hcs] at hsame
  exact hsame.trans hlexeme

/-- Lexing goes on behind a block as it would start on the text behind it.  The induction is on the run over
the block: each token but the last ends before a close tag, so that what follows the block does not concern
it. -/
theorem lexFrom_append {mode : Mode} {line : Int} {block rest : Text}
    (hends : (lexFrom mode line block).EndsBlock)
    (hbreak : Text.ofChars ['?', '>'] <:+ block → lineBreakLength rest = 0) :
    lexFrom mode line (block ++ rest) =
      ⟨(lexFrom mode line block).tokens ++ (lexFrom .html (line + block.lineFeeds) rest).tokens,
        (lexFrom .html (line + block.lineFeeds) rest).error⟩ := by
  fun_induction lexFrom mode line block with
  | case1 mode line => cases hends.last_eq
  | case2 mode line c cs what hlexeme => cases hends.error_eq
  | case3 mode line c cs kind more hlexeme text next ih =>
      by_cases hlast : cs.drop more = []
      · have hnext : next = ⟨[], none⟩ := by
          unfold next
          rw [hlast, lexFrom_nil]
        have htext : text = c :: cs := by
          rw [← List.take_append_drop more cs, hlast, List.append_nil]
        rw [hnext] at hends ⊢
        have hkind : kind = .closeTag := Option.some.inj hends.last_eq
        rw [hkind] at hlexeme
        obtain ⟨rfl, v, rfl, rfl, rfl⟩ := lexeme_eq_closeTag hlexeme
        rw [Nat.add_comm, List.drop_succ_cons] at hlast
        rw [hkind, htext]
        refine lexFrom_closeTag hlast fun hempty => hbreak ?_
        rw [hempty]
        exact List.suffix_rfl
      · have hnext : next.EndsBlock := endsBlock_of_cons hlast hends
        obtain ⟨t, v, htail⟩ := exists_closedBy_of_endsBlock hnext
        have hmore : more ≤ cs.length :=
          Nat.le_of_not_le fun hshort => hlast (List.drop_eq_nil_iff.mpr hshort)
        have hsuffix : cs.drop more <:+ c :: cs := (List.drop_suffix more cs).trans (List.suffix_cons c cs)
        have hfeeds : (line + text.lineFeeds + Text.lineFeeds (cs.drop more) : Int) =
            line + Text.lineFeeds (c :: cs) := by
          have htext : text ++ cs.drop more = c :: cs := congrArg (c :: ·) (List.take_append_drop more cs)
          rw [← htext, Text.lineFeeds_append]
          omega
        have hgoes := ih hnext fun hclose => hbreak (hclose.trans hsuffix)
        rw [hfeeds] at hgoes
        rw [List.cons_append, lexFrom_of_token (lexeme_append hlexeme htail rest),
          List.take_append_of_le_length hmore, List.drop_append_of_le_length hmore, hgoes]
        rfl

/-! ## Call sites behind a block -/

section Windows

variable (callees : Callees) {tokens : List Token}

/-- A close tag is no part of a call, so no window goes through one. -/
theorem windowSite?_append_of_closeTag (hlast : tokens.getLast?.map Token.kind = some .closeTag)
    (more : List Token) : windowSite? callees (tokens ++ more) = windowSite? callees tokens := by
  have hparen (last : Token) (hkind : last.kind = .closeTag) (rest : List (TokenKind × Text)) :
      windowArgument? (last.content :: rest) = none := by
    rcases rest with _ | ⟨argument, _ | ⟨mark, rest⟩⟩
    · rfl
    · rfl
    · simp [windowArgument?, Token.content, hkind]
  have hargument (paren last : Token) (hkind : last.kind = .closeTag) (rest : List (TokenKind × Text)) :
      windowArgument? (paren.content :: last.content :: rest) = none := by
    cases rest with
    | nil => rfl
    | cons mark rest => simp [windowArgument?, Token.content, hkind]
  rcases tokens with _ | ⟨callee, _ | ⟨paren, _ | ⟨argument, _ | ⟨mark, tokens⟩⟩⟩⟩
  · cases hlast
  · have hkind : callee.kind = .closeTag := Option.some.inj hlast
    have hother : callee.kind ≠ .identifier := by simp [hkind]
    rw [List.singleton_append, windowSite?_eq_none_of_kind callees hother,
      windowSite?_eq_none_of_kind callees hother]
  · have hkind : paren.kind = .closeTag := Option.some.inj hlast
    simp only [List.cons_append, List.nil_append, windowSite?, List.map_cons, hparen paren hkind]
  · have hkind : argument.kind = .closeTag := Option.some.inj hlast
    simp only [List.cons_append, List.nil_append, windowSite?, List.map_cons,
      hargument paren argument hkind]
  · rfl

theorem windowSites_append_of_closeTag (hlast : ∀ last, tokens.getLast? = some last → last.kind = .closeTag)
    (more : List Token) :
    windowSites callees (tokens ++ more) = windowSites callees tokens ++ windowSites callees more := by
  induction tokens with
  | nil => rfl
  | cons token tokens ih =>
      have hrest : ∀ last, tokens.getLast? = some last → last.kind = .closeTag := by
        intro last hmem
        refine hlast last ?_
        rw [List.getLast?_cons, hmem]
        rfl
      have hsame : windowSite? callees (token :: tokens ++ more) = windowSite? callees (token :: tokens) := by
        refine windowSite?_append_of_closeTag callees ?_ more
        rw [List.getLast?_cons]
        exact congrArg some (hlast _ List.getLast?_cons)
      rw [List.cons_append] at hsame ⊢
      rw [windowSites_cons, windowSites_cons, hsame, ih hrest, List.append_assoc]

/-- Behind a close tag call sites are looked for anew. -/
theorem callSites_append_of_closeTag {last : Token} (hkind : last.kind = .closeTag)
    (before after : List Token) :
    callSites callees (before ++ [last] ++ after) =
      callSites callees (before ++ [last]) ++ callSites callees after := by
  have hsignificant : last.isTrivia = false := by
    rw [Token.isTrivia, hkind]
    rfl
  have hlast : significant (before ++ [last]) = significant before ++ [last] := by
    rw [significant, List.filter_append, ← significant, ← significant,
      significant_cons_of_not_isTrivia hsignificant]
    rfl
  have happend : significant (before ++ [last] ++ after) =
      significant (before ++ [last]) ++ significant after := List.filter_append _ _
  rw [callSites_eq_windowSites, callSites_eq_windowSites, callSites_eq_windowSites, happend]
  refine windowSites_append_of_closeTag callees (fun other hmem => ?_) _
  rw [hlast, List.getLast?_concat, Option.some.injEq] at hmem
  rw [← hmem, hkind]

/-- A window tells the line of a call site by its first token. -/
theorem windowSite?_below (lines : Int) (tokens : List Token) :
    windowSite? callees (tokens.map (Token.below lines)) =
      (windowSite? callees tokens).map (CallSite.below lines) := by
  cases tokens with
  | nil => rfl
  | cons callee tokens =>
      have hcontent : (tokens.map (Token.below lines)).map Token.content = tokens.map Token.content := by
        rw [List.map_map]
        rfl
      have hsame : windowArgument? ((tokens.map (Token.below lines)).map Token.content) =
          windowArgument? (tokens.map Token.content) := by rw [hcontent]
      simp only [List.map_cons, windowSite?, hsame, Token.below]
      split
      · rfl
      · rfl

theorem callSites_below (lines : Int) (tokens : List Token) :
    callSites callees (tokens.map (Token.below lines)) =
      (callSites callees tokens).map (CallSite.below lines) := by
  have hsignificant : significant (tokens.map (Token.below lines)) =
      (significant tokens).map (Token.below lines) := List.filter_map
  rw [callSites_eq_windowSites, callSites_eq_windowSites, hsignificant]
  induction significant tokens with
  | nil => rfl
  | cons token tokens ih =>
      have hfirst := windowSite?_below callees lines (token :: tokens)
      rw [List.map_cons] at hfirst ⊢
      rw [windowSites_cons, windowSites_cons, ih, hfirst, List.map_append, Option.toList_map]

end Windows

/-! ## Two blocks -/

theorem hasOpenTag_append {second : Text} (hsecond : hasOpenTag second = true) (first : Text) :
    hasOpenTag (first ++ second) = true := by
  induction first with
  | nil => exact hsecond
  | cons c first ih => rw [List.cons_append, hasOpenTag, ih, Bool.or_true]

/-- The tokens of a template are those of its blocks, and so are its call sites.  What is behind the first block
may be any source with an open tag, also one that leaves something open: then the error is its own too. -/
theorem tokenize_append {first second : Text} (hfirst : hasOpenTag first = true)
    (hsecond : hasOpenTag second = true) (herror : (lex first).error = none)
    (hlast : (tokenize first).getLast?.map Token.kind = some .closeTag)
    (hbreak : ¬(Text.ofChars ['?', '>'] <:+ first ∧
      (Text.ofChars ['\n'] <+: second ∨ Text.ofChars ['\r', '\n'] <+: second))) :
    tokenize (first ++ second) =
        tokenize first ++ (tokenize second).map (Token.below first.lineFeeds) ∧
      (lex (first ++ second)).error = (lex second).error.map (LexError.below first.lineFeeds) ∧
      ∀ callees, callSites callees (tokenize (first ++ second)) =
        callSites callees (tokenize first) ++
          (callSites callees (tokenize second)).map (CallSite.below first.lineFeeds) := by
  have hstart (source : Text) (htag : hasOpenTag source = true) : lex source = lexFrom .html 1 source := by
    rw [lex, startMode, if_pos htag]
  have hends : (lexFrom .html 1 first).EndsBlock := by
    rw [← hstart first hfirst]
    exact ⟨herror, hlast⟩
  have hboth : lex (first ++ second) = ⟨tokenize first ++ (tokenize second).map (Token.below first.lineFeeds),
      (lex second).error.map (LexError.below first.lineFeeds)⟩ := by
    rw [hstart _ (hasOpenTag_append hsecond first),
      lexFrom_append hends fun hclose => lineBreakLength_eq_zero fun hnext => hbreak ⟨hclose, hnext⟩,
      lexFrom_add, ← hstart second hsecond, ← hstart first hfirst]
    rfl
  have htokens := congrArg Lexing.tokens hboth
  refine ⟨htokens, congrArg Lexing.error hboth, fun callees => ?_⟩
  obtain ⟨last, hmem, hkind⟩ := Option.map_eq_some_iff.mp hlast
  obtain ⟨before, hsplit⟩ := List.getLast?_eq_some_iff.mp hmem
  have hsites : tokenize (first ++ second) =
      before ++ [last] ++ (tokenize second).map (Token.below first.lineFeeds) := by
    rw [← hsplit]
    exact htokens
  rw [hsites, hsplit, callSites_append_of_closeTag callees hkind, callSites_below]

/-- A block that prints a constant. -/
def printingBlock : Text :=
  Text.ofChars ['<', '?', '=', 'a', '\n', '?', '>']

/-- A block that leaves a string open. -/
def openBlock : Text :=
  Text.ofChars ['<', '?', '=', '\'']

theorem lex_printingBlock :
    lex printingBlock =
      ⟨[⟨.openTag, Text.ofChars ['<', '?', '='], 1⟩, ⟨.identifier, Text.ofChars ['a'], 1⟩,
        ⟨.whitespace, Text.ofChars ['\n'], 1⟩, ⟨.closeTag, Text.ofChars ['?', '>'], 2⟩], none⟩ := by
  cbv

theorem tokenize_append_printingBlock :
    hasOpenTag printingBlock = true ∧ hasOpenTag openBlock = true ∧ (lex printingBlock).error = none ∧
      (tokenize printingBlock).getLast?.map Token.kind = some .closeTag ∧
      ¬(Text.ofChars ['?', '>'] <:+ printingBlock ∧
        (Text.ofChars ['\n'] <+: openBlock ∨ Text.ofChars ['\r', '\n'] <+: openBlock)) ∧
      tokenize (printingBlock ++ openBlock) =
        tokenize printingBlock ++ (tokenize openBlock).map (Token.below printingBlock.lineFeeds) ∧
      (lex (printingBlock ++ openBlock)).error =
        (lex openBlock).error.map (LexError.below printingBlock.lineFeeds) ∧
      ∀ callees, callSites callees (tokenize (printingBlock ++ openBlock)) =
        callSites callees (tokenize printingBlock) ++
          (callSites callees (tokenize openBlock)).map (CallSite.below printingBlock.lineFeeds) := by
  have herror : (lex printingBlock).error = none := by rw [lex_printingBlock]
  have hlast : (tokenize printingBlock).getLast?.map Token.kind = some .closeTag := by
    rw [tokenize, lex_printingBlock]
    rfl
  exact ⟨by decide, by decide, herror, hlast, by decide,
    tokenize_append (by decide) (by decide) herror hlast (by decide)⟩

end HookAtlas.Php
