/-
# A literal hook name is found as it was written

A `LiteralCall` is a source that begins with a call whose first argument is a text written as a quoted
literal.  The layouts between its parts are arbitrary, and so is everything behind its argument: the rest
of the source may be text that the lexer gives up on.

The first call site of such a source is the call, with the text that was written, exactly where the name
of the function does not start with white space.  A name may start with any code point beyond ASCII, and
some of these are white space.  White space is looked for before names, so such a name is torn apart and
no call site ever has it.
-/

import HookAtlas.Proofs.Php.Layout

namespace HookAtlas.Php

/-! ## Where call sites are found -/

/-- A call site starts with an identifier, which is its function, and has its line. -/
theorem callSiteAt?_eq_some {callees : Callees} {token : Token} {after : List Token} {site : CallSite}
    (hfound : callSiteAt? callees token after = some site) :
    token.kind = .identifier ∧ token.text = site.callee ∧ site.line = token.line := by
  rw [callSiteAt?] at hfound
  split at hfound
  · cases hfound
  · next hkind =>
      split at hfound
      · cases hfound
      · obtain ⟨hookName, -, rfl⟩ := Option.map_eq_some_iff.mp hfound
        exact ⟨Decidable.of_not_not hkind, rfl, rfl⟩

/-- Every call site was found at one of the tokens. -/
theorem exists_split_of_mem_callSites {callees : Callees} {tokens : List Token} {site : CallSite}
    (hmem : site ∈ callSites callees tokens) :
    ∃ before token after, tokens = before ++ token :: after ∧
      callSiteAt? callees token after = some site := by
  induction tokens with
  | nil => exact absurd hmem List.not_mem_nil
  | cons token tokens ih =>
      rw [callSites, List.mem_append, Option.mem_toList] at hmem
      rcases hmem with hhere | hlater
      · exact ⟨[], token, tokens, rfl, hhere⟩
      · obtain ⟨before, other, after, rfl, hfound⟩ := ih hlater
        exact ⟨token :: before, other, after, rfl, hfound⟩

/-! ## Trivia between the tokens of a call -/

theorem callSites_trivia_append (callees : Callees) {trivia : List Token}
    (htrivia : ∀ token ∈ trivia, token.isTrivia = true) (tokens : List Token) :
    callSites callees (trivia ++ tokens) = callSites callees tokens := by
  induction trivia with
  | nil => rfl
  | cons token trivia ih =>
      have hother : token.kind ≠ .identifier := by
        intro hkind
        have hfirst := htrivia token List.mem_cons_self
        rw [Token.isTrivia, hkind] at hfirst
        cases hfirst
      rw [List.cons_append, callSites, callSiteAt?, if_pos hother,
        ih fun other hmem => htrivia other (List.mem_cons_of_mem token hmem)]
      rfl

theorem nextSignificant?_trivia_append {trivia : List Token} {token : Token}
    (htrivia : ∀ other ∈ trivia, other.isTrivia = true) (hsignificant : token.isTrivia = false)
    (tokens : List Token) :
    nextSignificant? (trivia ++ token :: tokens) = some (token, tokens) := by
  induction trivia with
  | nil => rw [List.nil_append, nextSignificant?, hsignificant]; rfl
  | cons other trivia ih =>
      rw [List.cons_append, nextSignificant?, if_pos (htrivia other List.mem_cons_self),
        ih fun one hmem => htrivia one (List.mem_cons_of_mem other hmem)]

/-- Behind a layout the next significant token is what the recogniser finds there. -/
theorem nextSignificant?_of_isPassed {w cs rest : Text} {c : CodePoint} {kind : TokenKind}
    (hpassed : IsPassed w (c :: cs ++ rest))
    (hlexeme : codeLexeme c (cs ++ rest) = .token kind cs.length)
    (hsignificant : kind.isTrivia = false) (hstay : kind ≠ .closeTag) (line : Int) :
    ∃ start next, nextSignificant? (lexFrom .code line (w ++ (c :: cs ++ rest))).tokens =
      some (⟨kind, c :: cs, start⟩, (lexFrom .code next rest).tokens) := by
  obtain ⟨trivia, htrivia, heq⟩ := hpassed line
  have htoken : Token.isTrivia ⟨kind, c :: cs, line + w.lineFeeds⟩ = false := hsignificant
  rw [heq, tokens_of_codeLexeme hlexeme hstay]
  exact ⟨_, _, nextSignificant?_trivia_append htrivia htoken _⟩

/-! ## The source of a call -/

/-- A source that begins with a call whose first argument is a literal: the function, the argument and how it is
quoted, the layout before the function, before the parenthesis and around the argument, the mark behind it, and
the rest of the source. -/
structure LiteralCall where
  callee : Text
  hookName : Text
  quoting : Quoting
  beforeCallee : Text
  beforeParen : Text
  beforeArgument : Text
  behindArgument : Text
  mark : CodePoint
  rest : Text
  isName_callee : IsName callee
  isLayout_beforeCallee : IsLayout beforeCallee
  isLayout_beforeParen : IsLayout beforeParen
  isLayout_beforeArgument : IsLayout beforeArgument
  isLayout_behindArgument : IsLayout behindArgument
  endsArgument : mark = ',' ∨ mark = ')'

namespace LiteralCall

variable (call : LiteralCall)

def afterArgument : Text :=
  call.behindArgument ++ ([call.mark] ++ call.rest)

def afterCallee : Text :=
  call.beforeParen ++ ([CodePoint.ofChar '('] ++
    (call.beforeArgument ++ (call.quoting.literal call.hookName ++ call.afterArgument)))

def source : Text :=
  Text.ofChars ['<', '?', 'p', 'h', 'p', ' '] ++ call.beforeCallee ++ call.callee ++ call.afterCallee

/-- The quote, the marks of a call and the function end a run of white space. -/
theorem isBlank_callMark {c : CodePoint} (hmark : IsCallMark c) : c.isBlank = false := by
  rcases hmark with rfl | rfl | rfl
  · decide
  · decide
  · decide

theorem isBlank_quote (quoting : Quoting) : quoting.quote.isBlank = false := by
  cases quoting with
  | single => decide
  | double => decide

/-- The argument of the call is the text that was written. -/
theorem literalArgument?_afterCallee (line : Int) :
    literalArgument? (lexFrom .code line call.afterCallee).tokens = some call.hookName := by
  have hmark : IsCallMark call.mark := call.endsArgument.elim (.inr ∘ .inl) (.inr ∘ .inr)
  have hbeforeParen : IsPassed call.beforeParen ([CodePoint.ofChar '('] ++ (call.beforeArgument ++
      (call.quoting.literal call.hookName ++ call.afterArgument))) :=
    call.isLayout_beforeParen.isPassed (Text.startsOutside_cons.mpr (isBlank_callMark (.inl rfl)))
  have hbeforeArgument : IsPassed call.beforeArgument
      (call.quoting.literal call.hookName ++ call.afterArgument) :=
    call.isLayout_beforeArgument.isPassed (Text.startsOutside_cons.mpr (isBlank_quote call.quoting))
  have hbehindArgument : IsPassed call.behindArgument ([call.mark] ++ call.rest) :=
    call.isLayout_behindArgument.isPassed (Text.startsOutside_cons.mpr (isBlank_callMark hmark))
  obtain ⟨_, start, hparen⟩ := nextSignificant?_of_isPassed hbeforeParen
    (codeLexeme_callMark (.inl rfl) _) rfl (by decide) line
  obtain ⟨_, next, hliteral⟩ := nextSignificant?_of_isPassed hbeforeArgument
    (codeLexeme_literal call.quoting call.hookName call.afterArgument) rfl (by decide) start
  obtain ⟨_, _, hend⟩ := nextSignificant?_of_isPassed hbehindArgument
    (codeLexeme_callMark hmark _) rfl (by decide) next
  have hpunct (start : Int) : Token.isPunct ⟨.punct, [CodePoint.ofChar '('], start⟩ '(' = true := rfl
  have hends (start : Int) : (Token.isPunct ⟨.punct, [call.mark], start⟩ ',' ||
      Token.isPunct ⟨.punct, [call.mark], start⟩ ')') = true := by
    rcases call.endsArgument with heq | heq
    · rw [heq]; rfl
    · rw [heq]; rfl
  rw [literalArgument?, afterCallee, hparen]
  dsimp only
  rw [hpunct, Bool.not_true, if_neg Bool.false_ne_true, Quoting.literal, hliteral]
  dsimp only
  rw [if_neg (fun hkind => hkind rfl), afterArgument, hend]
  dsimp only
  rw [if_pos (hends _)]
  exact congrArg some (Quoting.literalValue_literal call.quoting call.hookName)

/-- The function of the call is one identifier, if it does not start with white space. -/
theorem codeLexeme_callee (hhead : Text.StartsOutside CodePoint.isBlank call.callee) :
    ∃ c cs, call.callee = c :: cs ∧
      codeLexeme c (cs ++ call.afterCallee) = .token .identifier cs.length := by
  obtain ⟨c, cs, hcallee, hstart, hparts⟩ := call.isName_callee
  have hafter : Text.StartsOutside CodePoint.isNamePart call.afterCallee :=
    call.isLayout_beforeParen.startsOutside_isNamePart (Text.startsOutside_cons.mpr (by decide))
  rw [hcallee, Text.startsOutside_cons] at hhead
  refine ⟨c, cs, hcallee, ?_⟩
  rw [codeLexeme_name hhead hstart, Text.runLength_append hparts hafter]

/-- Lexing the source gives the open tag, a layout and the function, and goes on behind it. -/
theorem tokenize_source (hhead : Text.StartsOutside CodePoint.isBlank call.callee) :
    ∃ tag trivia, (∀ token ∈ trivia, token.isTrivia = true) ∧ tag.kind = .openTag ∧
      ∃ line, tokenize call.source = tag :: (trivia ++
        ⟨.identifier, call.callee, 1 + (call.beforeCallee.lineFeeds : Int)⟩ ::
          (lexFrom .code line call.afterCallee).tokens) := by
  obtain ⟨c, cs, hcallee, hlexeme⟩ := call.codeLexeme_callee hhead
  have hlayout : IsLayout (CodePoint.ofChar ' ' :: call.beforeCallee) :=
    .blank (by decide) (by decide) call.isLayout_beforeCallee
  have houtside : Text.StartsOutside CodePoint.isBlank (c :: cs ++ call.afterCallee) := by
    rw [hcallee, Text.startsOutside_cons] at hhead
    exact Text.startsOutside_cons.mpr hhead
  obtain ⟨trivia, htrivia, hpassed⟩ := hlayout.isPassed houtside 1
  have hmode : startMode call.source = .html := rfl
  have htag : Mode.html.lexeme '<' (Text.ofChars ['?', 'p', 'h', 'p'] ++
      (CodePoint.ofChar ' ' :: call.beforeCallee ++ (c :: cs ++ call.afterCallee))) =
      .token .openTag 4 := rfl
  have hsource : call.source = CodePoint.ofChar '<' :: (Text.ofChars ['?', 'p', 'h', 'p'] ++
      (CodePoint.ofChar ' ' :: call.beforeCallee ++ (c :: cs ++ call.afterCallee))) := by
    rw [source, hcallee, List.append_assoc, List.append_assoc]
    rfl
  refine ⟨⟨.openTag, Text.ofChars ['<', '?', 'p', 'h', 'p'], 1⟩, trivia, htrivia, rfl,
    1 + (call.beforeCallee.lineFeeds : Int) + Text.lineFeeds (c :: cs), ?_⟩
  rw [tokenize, lex, hmode, hsource, lexFrom_of_token htag]
  have hfeeds : Text.lineFeeds (CodePoint.ofChar ' ' :: call.beforeCallee) =
      call.beforeCallee.lineFeeds := rfl
  rw [tokens_of_codeLexeme hlexeme (by decide), hfeeds, ← hcallee] at hpassed
  rw [← hcallee]
  exact congrArg _ hpassed

/-! ## The call site -/

/-- An identifier of a source never starts with white space. -/
theorem startsOutside_of_identifier {source : Text} {token : Token}
    (hmem : token ∈ tokenize source) (hkind : token.kind = .identifier) :
    Text.StartsOutside CodePoint.isBlank token.text := by
  obtain ⟨before, after, hsplit⟩ := List.append_of_mem hmem
  obtain ⟨c, cs, more, -, hlexeme, htoken, -⟩ := lexFrom_split hsplit
  have htext : token.text = c :: cs.take more := congrArg Token.text htoken
  rw [hkind] at hlexeme
  rw [htext, Text.startsOutside_cons]
  cases hmode : (startMode source).afterTokens before with
  | code =>
      rw [hmode] at hlexeme
      exact isBlank_eq_false_of_identifier hlexeme
  | html =>
      rw [hmode, Mode.lexeme, htmlLexeme] at hlexeme
      split at hlexeme
      · cases hlexeme
      · cases hlexeme

/-- No call site has a function whose name starts with white space. -/
theorem startsOutside_callee {callees : Callees} {source : Text} {site : CallSite}
    (hmem : site ∈ callSites callees (tokenize source)) :
    Text.StartsOutside CodePoint.isBlank site.callee := by
  obtain ⟨before, token, after, hsplit, hfound⟩ := exists_split_of_mem_callSites hmem
  obtain ⟨hkind, htext, -⟩ := callSiteAt?_eq_some hfound
  rw [← htext]
  exact startsOutside_of_identifier (hsplit ▸ List.mem_append_right before List.mem_cons_self) hkind

/-- The first call site of the source is the call as it was written, exactly where the name of the
function does not start with white space. -/
theorem head?_callSites_source_iff (callees : Callees) {hookType : HookType}
    (hconfigured : callees.hookType? call.callee = some hookType) :
    (callSites callees (tokenize call.source)).head? =
        some ⟨call.callee, call.hookName, hookType, 1 + (call.beforeCallee.lineFeeds : Int)⟩ ↔
      Text.StartsOutside CodePoint.isBlank call.callee := by
  constructor
  · intro hfirst
    exact startsOutside_callee (List.mem_of_mem_head? hfirst)
  · intro hhead
    obtain ⟨tag, trivia, htrivia, htag, line, htokens⟩ := call.tokenize_source hhead
    have hother : tag.kind ≠ .identifier := by
      rw [htag]
      decide
    rw [htokens, callSites, callSiteAt?, if_pos hother, callSites_trivia_append callees htrivia,
      callSites, callSiteAt?, if_neg (fun hkind => hkind rfl), hconfigured]
    dsimp only
    rw [call.literalArgument?_afterCallee]
    rfl

/-- A call without any layout, in single quotes and at the end of the source. -/
def bare (callee hookName : Text) (hname : IsName callee) : LiteralCall where
  callee := callee
  hookName := hookName
  quoting := .single
  beforeCallee := []
  beforeParen := []
  beforeArgument := []
  behindArgument := []
  mark := ')'
  rest := []
  isName_callee := hname
  isLayout_beforeCallee := .nil
  isLayout_beforeParen := .nil
  isLayout_beforeArgument := .nil
  isLayout_behindArgument := .nil
  endsArgument := .inr rfl

/-- The shortest name of a function. -/
theorem isName_underscore : IsName (Text.ofChars ['_']) :=
  ⟨_, _, rfl, by decide, by decide⟩

/-- A call of a function whose name is plain ASCII is found with its text. -/
theorem head?_callSites_source_underscore :
    (callSites ⟨[Text.ofChars ['_']], []⟩
        (tokenize (bare (Text.ofChars ['_']) (Text.ofChars ['\'', '\\']) isName_underscore).source)).head? =
      some ⟨Text.ofChars ['_'], Text.ofChars ['\'', '\\'], .action, 1⟩ :=
  (head?_callSites_source_iff (bare (Text.ofChars ['_']) (Text.ofChars ['\'', '\\']) isName_underscore)
    ⟨[Text.ofChars ['_']], []⟩ rfl).mpr (Text.startsOutside_cons.mpr (by decide))

/-- The no-break space may start a name. -/
theorem isName_noBreakSpace : IsName [CodePoint.ofNat 0xA0, CodePoint.ofChar 'x'] :=
  ⟨_, _, rfl, by decide, by decide⟩

/-- Not every function that is configured by a PHP name is found. -/
theorem exists_literalCall_not_found :
    ¬ ∀ (callees : Callees) (call : LiteralCall) (hookType : HookType),
      callees.hookType? call.callee = some hookType →
        (callSites callees (tokenize call.source)).head? =
          some ⟨call.callee, call.hookName, hookType, 1 + (call.beforeCallee.lineFeeds : Int)⟩ := by
  intro hfound
  have hfirst := hfound ⟨[[CodePoint.ofNat 0xA0, CodePoint.ofChar 'x']], []⟩
    (bare [CodePoint.ofNat 0xA0, CodePoint.ofChar 'x'] (Text.ofChars ['a']) isName_noBreakSpace)
    .action rfl
  have hhead := startsOutside_callee (List.mem_of_mem_head? hfirst)
  exact absurd (Text.startsOutside_cons.mp hhead) (by decide)

end LiteralCall

end HookAtlas.Php
