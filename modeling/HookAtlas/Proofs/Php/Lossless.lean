/-
# Lexing loses nothing

A run of the lexer takes tokens off the front of the source until the source is used up or something
is left open.  `lexFrom_split` opens such a run at any of its tokens: it names the mode, the line and
the part of the source with which the recogniser was called there.  `lexFrom_stopped` does the same for
the place where a run stops early.  Whatever is said about the tokens of a run starts from these two.

The main statement, `lex_lossless`, is about coverage and lines only.  It says nothing about how the
source is cut; where an opaque token ends is the matter of another module.
-/

import HookAtlas.Php.Lexer

namespace HookAtlas

namespace Text

/-- Line feeds of two texts in a row add up. -/
@[simp]
theorem lineFeeds_append (s t : Text) : (s ++ t).lineFeeds = s.lineFeeds + t.lineFeeds :=
  List.countP_append

@[simp]
theorem lineFeeds_nil : lineFeeds [] = 0 := rfl

end Text

namespace Php

/-- The part of the source that a list of tokens covers. -/
def coveredText (tokens : List Token) : Text :=
  tokens.flatMap Token.text

@[simp]
theorem coveredText_nil : coveredText [] = [] := rfl

@[simp]
theorem coveredText_cons (token : Token) (tokens : List Token) :
    coveredText (token :: tokens) = token.text ++ coveredText tokens := rfl

/-- The mode after a list of tokens. -/
def Mode.afterTokens (mode : Mode) (tokens : List Token) : Mode :=
  tokens.foldl (fun mode token => mode.after token.kind) mode

/-- How often the loop that yields tokens is entered: once for every token, and once more where it
stops at something left open. -/
def Lexing.steps (lexing : Lexing) : Nat :=
  lexing.tokens.length + lexing.error.toList.length

/-! ## One step of a run -/

@[simp]
theorem lexFrom_nil (mode : Mode) (line : Int) : lexFrom mode line [] = ⟨[], none⟩ := by
  rw [lexFrom]

theorem lexFrom_of_token {mode : Mode} {c : CodePoint} {cs : Text} {kind : TokenKind} {more : Nat}
    (hlexeme : mode.lexeme c cs = .token kind more) (line : Int) :
    lexFrom mode line (c :: cs) =
      ⟨⟨kind, c :: cs.take more, line⟩ ::
          (lexFrom (mode.after kind) (line + Text.lineFeeds (c :: cs.take more))
            (cs.drop more)).tokens,
        (lexFrom (mode.after kind) (line + Text.lineFeeds (c :: cs.take more))
          (cs.drop more)).error⟩ := by
  rw [lexFrom, hlexeme]

theorem lexFrom_of_unterminated {mode : Mode} {c : CodePoint} {cs : Text} {what : Unterminated}
    (hlexeme : mode.lexeme c cs = .unterminated what) (line : Int) :
    lexFrom mode line (c :: cs) = ⟨[], some ⟨what, line⟩⟩ := by
  rw [lexFrom, hlexeme]

/-- A run is empty, or takes one token and goes on behind it, or stops at once. -/
theorem lexFrom_cases (mode : Mode) (line : Int) (source : Text) :
    (source = [] ∧ lexFrom mode line source = ⟨[], none⟩) ∨
    (∃ c cs what, source = c :: cs ∧ mode.lexeme c cs = .unterminated what ∧
      lexFrom mode line source = ⟨[], some ⟨what, line⟩⟩) ∨
    (∃ c cs kind more next, source = c :: cs ∧ mode.lexeme c cs = .token kind more ∧
      next = lexFrom (mode.after kind) (line + Text.lineFeeds (c :: cs.take more)) (cs.drop more) ∧
      lexFrom mode line source = ⟨⟨kind, c :: cs.take more, line⟩ :: next.tokens, next.error⟩) := by
  cases source with
  | nil => exact .inl ⟨rfl, lexFrom_nil mode line⟩
  | cons c cs =>
      cases hlexeme : mode.lexeme c cs with
      | token kind more =>
          exact .inr (.inr ⟨c, cs, kind, more, _, rfl, hlexeme, rfl, lexFrom_of_token hlexeme line⟩)
      | unterminated what =>
          exact .inr (.inl ⟨c, cs, what, rfl, hlexeme, lexFrom_of_unterminated hlexeme line⟩)

/-! ## A run opened at one of its tokens -/

/-- Open a run at one of its tokens.  The recogniser of the mode reached there was called on what the
tokens before it leave of the source, and the run goes on with what it leaves. -/
theorem lexFrom_split {mode : Mode} {line : Int} {source : Text} {before after : List Token}
    {token : Token} (hsplit : (lexFrom mode line source).tokens = before ++ token :: after) :
    ∃ c cs more,
      source = coveredText before ++ c :: cs ∧
      (mode.afterTokens before).lexeme c cs = .token token.kind more ∧
      token = ⟨token.kind, c :: cs.take more, line + (coveredText before).lineFeeds⟩ ∧
      after = (lexFrom ((mode.afterTokens before).after token.kind)
        (line + (coveredText (before ++ [token])).lineFeeds) (cs.drop more)).tokens := by
  induction before generalizing mode line source with
  | nil =>
      obtain ⟨-, hrun⟩ | ⟨_, _, _, -, -, hrun⟩ | ⟨c, cs, kind, more, next, rfl, hlexeme, rfl, hrun⟩ :=
        lexFrom_cases mode line source
      · simp [hrun] at hsplit
      · simp [hrun] at hsplit
      · rw [hrun, List.nil_append, List.cons.injEq] at hsplit
        obtain ⟨rfl, rfl⟩ := hsplit
        exact ⟨c, cs, more, rfl, hlexeme, by simp, by simp [Mode.afterTokens]⟩
  | cons first before ih =>
      obtain ⟨-, hrun⟩ | ⟨_, _, _, -, -, hrun⟩ | ⟨c, cs, kind, more, next, rfl, -, rfl, hrun⟩ :=
        lexFrom_cases mode line source
      · simp [hrun] at hsplit
      · simp [hrun] at hsplit
      · rw [hrun, List.cons_append, List.cons.injEq] at hsplit
        obtain ⟨rfl, hrest⟩ := hsplit
        obtain ⟨d, ds, size, hsource, hfound, htoken, hafter⟩ := ih hrest
        refine ⟨d, ds, size, ?_, hfound, ?_, ?_⟩
        · rw [coveredText_cons, List.append_assoc, ← hsource, List.cons_append,
            List.take_append_drop]
        · rw [htoken, coveredText_cons, Text.lineFeeds_append]
          push_cast
          rw [Int.add_assoc]
        · rw [hafter, List.cons_append, coveredText_cons, Text.lineFeeds_append]
          push_cast
          rw [← Int.add_assoc]
          rfl

/-- Where a run stops: at the end of the source, or before something that the recogniser of the mode
reached there finds left open. -/
theorem lexFrom_stopped (mode : Mode) (line : Int) (source : Text) :
    ∃ rest, source = coveredText (lexFrom mode line source).tokens ++ rest ∧
      ((rest = [] ∧ (lexFrom mode line source).error = none) ∨
        ∃ c cs what, rest = c :: cs ∧
          (mode.afterTokens (lexFrom mode line source).tokens).lexeme c cs = .unterminated what ∧
          (lexFrom mode line source).error =
            some ⟨what, line + (coveredText (lexFrom mode line source).tokens).lineFeeds⟩) := by
  fun_induction lexFrom mode line source with
  | case1 mode line => exact ⟨[], rfl, .inl ⟨rfl, rfl⟩⟩
  | case2 mode line c cs what hlexeme =>
      exact ⟨c :: cs, rfl, .inr ⟨c, cs, what, rfl, hlexeme, by simp⟩⟩
  | case3 mode line c cs kind more hlexeme text rest ih =>
      obtain ⟨left, hsource, hend⟩ := ih
      refine ⟨left, ?_, ?_⟩
      · rw [coveredText_cons, List.append_assoc, ← hsource]
        exact (congrArg (c :: ·) (List.take_append_drop more cs)).symm
      · rcases hend with hdone | ⟨d, ds, what, hrest, hfound, herror⟩
        · exact .inl hdone
        · refine .inr ⟨d, ds, what, hrest, hfound, ?_⟩
          rw [herror, coveredText_cons, Text.lineFeeds_append]
          push_cast
          rw [Int.add_assoc]

/-! ## Coverage, lines and the number of steps -/

/-- The tokens cover a part of the source from its start, and what they leave is what stopped the
run. -/
theorem coveredText_eq_iff (mode : Mode) (line : Int) (source : Text) :
    coveredText (lexFrom mode line source).tokens = source ↔
      (lexFrom mode line source).error = none := by
  obtain ⟨rest, hsource, hend⟩ := lexFrom_stopped mode line source
  rcases hend with ⟨rfl, herror⟩ | ⟨c, cs, what, rfl, -, herror⟩
  · rw [List.append_nil] at hsource
    exact ⟨fun _ => herror, fun _ => hsource.symm⟩
  · refine ⟨fun hcovered => ?_, fun hnone => ?_⟩
    · have hlength := congrArg List.length hsource
      rw [hcovered, List.length_append, List.length_cons] at hlength
      omega
    · rw [herror] at hnone
      cases hnone

/-- Every token has its first code point. -/
theorem text_ne_nil_of_mem_lexFrom {mode : Mode} {line : Int} {source : Text} {token : Token}
    (hmem : token ∈ (lexFrom mode line source).tokens) : token.text ≠ [] := by
  obtain ⟨before, after, hsplit⟩ := List.append_of_mem hmem
  obtain ⟨c, cs, more, -, -, htoken, -⟩ := lexFrom_split hsplit
  rw [htoken]
  exact List.cons_ne_nil _ _

/-- Tokens with text are no more than the code points that they cover. -/
theorem length_le_length_coveredText {tokens : List Token}
    (hnonempty : ∀ token ∈ tokens, token.text ≠ []) :
    tokens.length ≤ (coveredText tokens).length := by
  induction tokens with
  | nil => exact Nat.le_refl 0
  | cons token tokens ih =>
      have hrest := ih fun other hmem => hnonempty other (List.mem_cons_of_mem _ hmem)
      have hfirst := List.length_pos_iff.mpr (hnonempty token List.mem_cons_self)
      rw [List.length_cons, coveredText_cons, List.length_append]
      omega

/-- The loop is entered at most once for each code point, whatever the mode it starts in.  Where it
stops early there is a code point that no token covers, which pays for the last time. -/
theorem steps_le_length (mode : Mode) (line : Int) (source : Text) :
    (lexFrom mode line source).steps ≤ source.length := by
  have htokens := length_le_length_coveredText
    fun token (hmem : token ∈ (lexFrom mode line source).tokens) =>
      text_ne_nil_of_mem_lexFrom hmem
  obtain ⟨rest, hsource, hend⟩ := lexFrom_stopped mode line source
  have hlength := congrArg List.length hsource
  rw [List.length_append] at hlength
  rw [Lexing.steps]
  rcases hend with ⟨rfl, herror⟩ | ⟨c, cs, what, rfl, -, herror⟩
  · rw [herror, Option.toList_none, List.length_nil]
    omega
  · rw [herror, Option.toList_some, List.length_singleton]
    rw [List.length_cons] at hlength
    omega

/-- Lexing is lossless and its lines are right.  Every token has some text; the texts in a row are a
part of the source from its start, and all of it exactly where nothing is left open; a token starts on
the line after the line feeds before it, and so does what is left open; and the loop that yields the
tokens is entered at most once for each code point, in both modes. -/
theorem lex_lossless (source : Text) :
    (∀ token ∈ (lex source).tokens, token.text ≠ []) ∧
    coveredText (lex source).tokens <+: source ∧
    (coveredText (lex source).tokens = source ↔ (lex source).error = none) ∧
    (∀ before token after, (lex source).tokens = before ++ token :: after →
      token.line = 1 + ((coveredText before).lineFeeds : Int)) ∧
    (∀ error, (lex source).error = some error →
      error.line = 1 + ((coveredText (lex source).tokens).lineFeeds : Int)) ∧
    (lex source).steps ≤ source.length ∧
    ∀ mode line, (lexFrom mode line source).steps ≤ source.length := by
  obtain ⟨rest, hsource, hend⟩ := lexFrom_stopped (startMode source) 1 source
  refine ⟨fun token hmem => text_ne_nil_of_mem_lexFrom hmem, ⟨rest, hsource.symm⟩,
    coveredText_eq_iff _ _ _, ?_, ?_, steps_le_length _ _ _,
    fun mode line => steps_le_length mode line source⟩
  · intro before token after hsplit
    obtain ⟨c, cs, more, -, -, htoken, -⟩ := lexFrom_split hsplit
    exact congrArg Token.line htoken
  · intro error herror
    rcases hend with ⟨-, hnone⟩ | ⟨c, cs, what, -, -, hsome⟩
    · rw [lex, hnone] at herror
      cases herror
    · rw [lex, hsome, Option.some.injEq] at herror
      rw [← herror]
      rfl

end Php

end HookAtlas
