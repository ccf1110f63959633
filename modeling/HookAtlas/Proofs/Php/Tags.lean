/-
# Code is lexed between tags only

The recogniser of code finds neither open tags nor text outside tags, and the other one finds nothing else.  So
the kind of a token tells the mode in which it was found, and the mode behind a token is told by its kind alone:
behind a close tag and behind text outside tags the lexer is outside, behind any other token it is in code.
The order of the kinds in a run follows from this and from the mode in which the run starts.

Text outside tags ends where an open tag starts, which therefore comes next.
-/

import HookAtlas.Proofs.Php.Opaque
import Mathlib.Data.List.Induction

namespace HookAtlas.Php

/-- The kinds of tokens that are found outside tags. -/
def TokenKind.IsOutside (kind : TokenKind) : Prop :=
  kind = .openTag ∨ kind = .inlineHtml

/-- Behind a token the lexer is in code, unless the token is a close tag or text outside tags. -/
def TokenKind.modeBehind : TokenKind → Mode
  | .closeTag | .inlineHtml => .html
  | _ => .code

/-- An open tag occurs in a source. -/
def HoldsOpenTag (source : Text) : Prop :=
  ∃ before rest, source = before ++ rest ∧ StartsOpenTag rest

/-- The lexer starts outside tags exactly where an open tag occurs. -/
theorem hasOpenTag_iff (source : Text) : hasOpenTag source = true ↔ HoldsOpenTag source := by
  induction source with
  | nil =>
      simp only [hasOpenTag, Bool.false_eq_true, false_iff]
      rintro ⟨before, rest, hsource, htag⟩
      rw [(List.append_eq_nil_iff.mp hsource.symm).2, ← openTag?_isSome_iff] at htag
      cases htag
  | cons c cs ih =>
      rw [hasOpenTag, Bool.or_eq_true, ih, openTag?_isSome_iff]
      constructor
      · rintro (htag | ⟨before, rest, rfl, htag⟩)
        · exact ⟨[], c :: cs, rfl, htag⟩
        · exact ⟨c :: before, rest, rfl, htag⟩
      · rintro ⟨before, rest, hsource, htag⟩
        cases before with
        | nil =>
            rw [List.nil_append] at hsource
            exact .inl (hsource ▸ htag)
        | cons d before =>
            rw [List.cons_append, List.cons.injEq] at hsource
            exact .inr ⟨before, rest, hsource.2, htag⟩

/-! ## The kinds that a mode finds -/

/-- An answer is one of the recogniser of code. -/
def Lexeme.IsCode : Lexeme → Prop
  | .token kind _ => ¬ kind.IsOutside
  | .unterminated _ => True

/-- The recogniser for code finds neither open tags nor text outside tags. -/
theorem codeLexeme_isCode (c : CodePoint) (cs : Text) : (codeLexeme c cs).IsCode := by
  have hinside {kind : TokenKind} {more : Nat} (htag : kind ≠ .openTag) (hhtml : kind ≠ .inlineHtml) :
      (Lexeme.token kind more).IsCode := not_or.mpr ⟨htag, hhtml⟩
  have hanswer := codeAnswer_codeLexeme c cs
  generalize codeLexeme c cs = lexeme at hanswer ⊢
  cases hanswer with
  | openComment | openString | openShell | openHeredoc => exact trivial
  | _ => exact hinside TokenKind.noConfusion TokenKind.noConfusion

/-- The kind of a token tells the mode in which it was found. -/
theorem isOutside_iff_of_lexeme {mode : Mode} {c : CodePoint} {cs : Text} {kind : TokenKind} {more : Nat}
    (hlexeme : mode.lexeme c cs = .token kind more) : kind.IsOutside ↔ mode = .html := by
  cases mode with
  | code =>
      have hcode := codeLexeme_isCode c cs
      rw [show codeLexeme c cs = .token kind more from hlexeme] at hcode
      exact iff_of_false hcode Mode.noConfusion
  | html =>
      rw [Mode.lexeme, htmlLexeme] at hlexeme
      refine iff_of_true ?_ rfl
      split at hlexeme
      · cases hlexeme
        exact .inl rfl
      · cases hlexeme
        exact .inr rfl

/-- The mode behind a token is told by its kind. -/
theorem after_eq_modeBehind {mode : Mode} {kind : TokenKind} (hkind : kind.IsOutside ↔ mode = .html) :
    mode.after kind = kind.modeBehind := by
  cases mode with
  | code =>
      have hinside : ¬ kind.IsOutside := fun houtside => Mode.noConfusion (hkind.mp houtside)
      cases kind with
      | openTag => exact absurd (.inl rfl) hinside
      | inlineHtml => exact absurd (.inr rfl) hinside
      | _ => rfl
  | html =>
      rcases hkind.mpr rfl with rfl | rfl
      · rfl
      · rfl

/-! ## The modes of a run -/

theorem afterTokens_concat (mode : Mode) (tokens : List Token) (token : Token) :
    mode.afterTokens (tokens ++ [token]) = (mode.afterTokens tokens).after token.kind := by
  rw [Mode.afterTokens, List.foldl_append]
  rfl

/-- Between tags an open tag came before, and no close tag since. -/
theorem exists_openTag_of_afterTokens {tokens : List Token} (hcode : Mode.html.afterTokens tokens = .code) :
    ∃ before tag inside, tokens = before ++ tag :: inside ∧ tag.kind = .openTag ∧
      ∀ token ∈ inside, token.kind ≠ .closeTag := by
  induction tokens using List.reverseRecOn with
  | nil => cases hcode
  | append_singleton tokens last ih =>
      rw [afterTokens_concat] at hcode
      cases hmode : Mode.html.afterTokens tokens with
      | html =>
          rw [hmode] at hcode
          refine ⟨tokens, last, [], rfl, ?_, fun _ hmem => absurd hmem List.not_mem_nil⟩
          cases hkind : last.kind with
          | openTag => rfl
          | _ =>
              rw [hkind] at hcode
              cases hcode
      | code =>
          obtain ⟨before, tag, inside, rfl, htag, hinside⟩ := ih hmode
          refine ⟨before, tag, inside ++ [last], by simp, htag, fun token hmem => ?_⟩
          rcases List.mem_append.mp hmem with hmem | hmem
          · exact hinside token hmem
          · rw [List.mem_singleton.mp hmem]
            intro hclose
            rw [hmode, hclose] at hcode
            cases hcode

section Run

variable {mode : Mode} {line : Int} {source : Text} {before after : List Token} {token : Token}

/-- The kind of a token of a run tells the mode that was reached there. -/
theorem isOutside_iff_of_split (hsplit : (lexFrom mode line source).tokens = before ++ token :: after) :
    token.kind.IsOutside ↔ mode.afterTokens before = .html := by
  obtain ⟨c, cs, more, -, hlexeme, -, -⟩ := lexFrom_split hsplit
  exact isOutside_iff_of_lexeme hlexeme

/-- A token of code was found in code. -/
theorem afterTokens_eq_code_of_split
    (hsplit : (lexFrom mode line source).tokens = before ++ token :: after)
    (hinside : ¬ token.kind.IsOutside) : mode.afterTokens before = .code := by
  cases hreached : mode.afterTokens before with
  | code => rfl
  | html => exact absurd ((isOutside_iff_of_split hsplit).mpr hreached) hinside

/-- The mode reached in a run is told by the kind of the last token. -/
theorem afterTokens_of_split (hsplit : (lexFrom mode line source).tokens = before ++ token :: after) :
    mode.afterTokens (before ++ [token]) = token.kind.modeBehind := by
  rw [afterTokens_concat]
  exact after_eq_modeBehind (isOutside_iff_of_split hsplit)

/-- What was found outside tags is the first token of a run that starts there, or follows a close tag or text
outside tags directly. -/
theorem eq_nil_or_getLast?_of_isOutside
    (hsplit : (lexFrom mode line source).tokens = before ++ token :: after) (houtside : token.kind.IsOutside) :
    (before = [] ∧ mode = .html) ∨ before.getLast?.map Token.kind = some .closeTag ∨
      before.getLast?.map Token.kind = some .inlineHtml := by
  have hmode := (isOutside_iff_of_split hsplit).mp houtside
  rcases List.eq_nil_or_concat before with rfl | ⟨earlier, last, rfl⟩
  · exact .inl ⟨rfl, hmode⟩
  · right
    rw [List.concat_eq_append] at hsplit hmode ⊢
    rw [List.append_assoc, List.singleton_append] at hsplit
    rw [afterTokens_of_split hsplit] at hmode
    rw [List.getLast?_concat, Option.map_some, Option.some.injEq, Option.some.injEq]
    cases hkind : last.kind with
    | closeTag => exact .inl rfl
    | inlineHtml => exact .inr rfl
    | _ =>
        rw [hkind] at hmode
        cases hmode

/-- Behind text outside tags the source ends or an open tag comes. -/
theorem eq_nil_or_head?_of_inlineHtml
    (hsplit : (lexFrom mode line source).tokens = before ++ token :: after) (hhtml : token.kind = .inlineHtml) :
    after = [] ∨ after.head?.map Token.kind = some .openTag := by
  obtain ⟨c, cs, more, -, hlexeme, -, hafter⟩ := lexFrom_split hsplit
  have hright := lexeme_isRight (mode.afterTokens before) c cs
  rw [hlexeme, hhtml] at hright
  rw [(isOutside_iff_of_split hsplit).mp (.inr hhtml), hhtml] at hafter
  rcases hright.holds with hend | htag
  · left
    rw [hafter, hend, lexFrom_nil]
  · right
    cases hrest : cs.drop more with
    | nil =>
        rw [hrest, ← openTag?_isSome_iff] at htag
        cases htag
    | cons d ds =>
        rw [hrest, ← openTag?_isSome_iff] at htag
        obtain ⟨n, hn⟩ := Option.isSome_iff_exists.mp htag
        have hopens : Mode.html.lexeme d ds = .token .openTag (n - 1) := by
          rw [Mode.lexeme, htmlLexeme, hn]
        rw [hafter, hrest]
        exact congrArg (Option.map Token.kind) (congrArg (List.head? ∘ Lexing.tokens)
          (lexFrom_of_token hopens _))

/-- Where an open tag was found there is one in the source. -/
theorem holdsOpenTag_of_split (hsplit : (lexFrom mode line source).tokens = before ++ token :: after)
    (hkind : token.kind = .openTag) : HoldsOpenTag source := by
  obtain ⟨c, cs, more, hsource, hlexeme, -, -⟩ := lexFrom_split hsplit
  refine ⟨coveredText before, c :: cs, hsource, ?_⟩
  rw [(isOutside_iff_of_split hsplit).mp (.inl hkind), hkind, Mode.lexeme, htmlLexeme] at hlexeme
  split at hlexeme
  · next hopens => exact (openTag?_isSome_iff _).mp (Option.isSome_of_eq_some hopens)
  · cases hlexeme

/-- In a source without open tag none is found. -/
theorem ne_openTag_of_mem (hnone : ¬ HoldsOpenTag source) (hmem : token ∈ (lexFrom mode line source).tokens) :
    token.kind ≠ .openTag := by
  intro hkind
  obtain ⟨before, after, hsplit⟩ := List.append_of_mem hmem
  exact hnone (holdsOpenTag_of_split hsplit hkind)

/-- In a run that starts outside tags, what was found between tags comes behind an open tag, with no close tag
in between. -/
theorem exists_openTag_of_split (hsplit : (lexFrom .html line source).tokens = before ++ token :: after)
    (hinside : ¬ token.kind.IsOutside) :
    ∃ earlier tag inside, before = earlier ++ tag :: inside ∧ tag.kind = .openTag ∧
      ∀ other ∈ inside, other.kind ≠ .closeTag :=
  exists_openTag_of_afterTokens (afterTokens_eq_code_of_split hsplit hinside)

/-- Text outside tags never follows text outside tags, so it comes first or behind a close tag. -/
theorem eq_nil_or_closeTag_of_inlineHtml
    (hsplit : (lexFrom mode line source).tokens = before ++ token :: after) (hhtml : token.kind = .inlineHtml) :
    (before = [] ∧ mode = .html) ∨ before.getLast?.map Token.kind = some .closeTag := by
  rcases eq_nil_or_getLast?_of_isOutside hsplit (.inr hhtml) with hfirst | hclose | hbefore
  · exact .inl hfirst
  · exact .inr hclose
  · obtain ⟨last, hlast, hkind⟩ := Option.map_eq_some_iff.mp hbefore
    obtain ⟨earlier, rfl⟩ := List.getLast?_eq_some_iff.mp hlast
    rw [List.append_assoc, List.singleton_append] at hsplit
    rcases eq_nil_or_head?_of_inlineHtml hsplit hkind with hend | hnext
    · cases hend
    · rw [List.head?_cons, Option.map_some, hhtml] at hnext
      cases hnext

end Run

/-! ## All tokens of a source -/

/-- What occurs last only occurs at most once. -/
theorem countP_le_one {p : Token → Bool} {tokens : List Token}
    (hlast : ∀ before token after, tokens = before ++ token :: after → p token = true → after = []) :
    tokens.countP p ≤ 1 := by
  induction tokens with
  | nil => exact Nat.zero_le 1
  | cons token tokens ih =>
      rw [List.countP_cons]
      split
      · next hp =>
          rw [hlast [] token tokens rfl hp]
          exact Nat.le_refl 1
      · refine ih fun before other after hsplit => hlast (token :: before) other after ?_
        rw [hsplit, List.cons_append]

/-- Code is lexed between tags only.  In a source without open tag none is found, and text outside tags is found
at most once, at the end behind a close tag.  In any other source what is neither text outside tags nor an open
tag comes behind an open tag with no close tag in between; text outside tags comes first or behind a close tag,
and last or before an open tag; and an open tag comes first, or behind text outside tags, or behind a close
tag.  Text outside tags is never found twice in a row. -/
theorem tokenize_tags (source : Text) :
    (¬ HoldsOpenTag source →
      (∀ token ∈ tokenize source, token.kind ≠ .openTag) ∧
      (tokenize source).countP (fun token => token.kind = .inlineHtml) ≤ 1 ∧
      ∀ before token after, tokenize source = before ++ token :: after → token.kind = .inlineHtml →
        after = [] ∧ before.getLast?.map Token.kind = some .closeTag) ∧
    (HoldsOpenTag source →
      ∀ before token after, tokenize source = before ++ token :: after →
        (token.kind ≠ .inlineHtml → token.kind ≠ .openTag →
          ∃ earlier tag inside, before = earlier ++ tag :: inside ∧ tag.kind = .openTag ∧
            ∀ other ∈ inside, other.kind ≠ .closeTag) ∧
        (token.kind = .inlineHtml →
          (before = [] ∨ before.getLast?.map Token.kind = some .closeTag) ∧
            (after = [] ∨ after.head?.map Token.kind = some .openTag)) ∧
        (token.kind = .openTag →
          before = [] ∨ before.getLast?.map Token.kind = some .inlineHtml ∨
            before.getLast?.map Token.kind = some .closeTag)) ∧
    ∀ before first second after, tokenize source = before ++ first :: second :: after →
      ¬ (first.kind = .inlineHtml ∧ second.kind = .inlineHtml) := by
  refine ⟨fun hnone => ?_, fun htag before token after hsplit => ⟨?_, ?_, ?_⟩,
    fun before first second after hsplit hboth => ?_⟩
  · have hstart : startMode source = .code := by
      rw [startMode, if_neg fun htag => hnone ((hasOpenTag_iff source).mp htag)]
    have hopen : ∀ token ∈ tokenize source, token.kind ≠ .openTag :=
      fun token hmem => ne_openTag_of_mem hnone hmem
    have hhtml : ∀ before token after, tokenize source = before ++ token :: after →
        token.kind = .inlineHtml → after = [] ∧ before.getLast?.map Token.kind = some .closeTag := by
      intro before token after hsplit hkind
      constructor
      · rcases eq_nil_or_head?_of_inlineHtml hsplit hkind with hend | hnext
        · exact hend
        · obtain ⟨next, hhead, hnextKind⟩ := Option.map_eq_some_iff.mp hnext
          refine absurd hnextKind (hopen next ?_)
          rw [hsplit]
          exact List.mem_append_right _ (List.mem_cons_of_mem _ (List.mem_of_head? hhead))
      · rcases eq_nil_or_closeTag_of_inlineHtml hsplit hkind with ⟨-, hmode⟩ | hclose
        · rw [hstart] at hmode
          cases hmode
        · exact hclose
    refine ⟨hopen, countP_le_one fun before token after hsplit hkind => ?_, hhtml⟩
    exact (hhtml before token after hsplit (of_decide_eq_true hkind)).1
  · intro hhtml hopens
    have hstart : startMode source = .html := by
      rw [startMode, if_pos ((hasOpenTag_iff source).mpr htag)]
    rw [tokenize, lex, hstart] at hsplit
    exact exists_openTag_of_split hsplit (not_or.mpr ⟨hopens, hhtml⟩)
  · intro hhtml
    exact ⟨(eq_nil_or_closeTag_of_inlineHtml hsplit hhtml).imp_left And.left,
      eq_nil_or_head?_of_inlineHtml hsplit hhtml⟩
  · intro hopens
    exact (eq_nil_or_getLast?_of_isOutside hsplit (.inl hopens)).imp And.left Or.symm
  · rcases eq_nil_or_head?_of_inlineHtml hsplit hboth.1 with hend | hnext
    · cases hend
    · rw [List.head?_cons, Option.map_some, hboth.2] at hnext
      cases hnext

end HookAtlas.Php
