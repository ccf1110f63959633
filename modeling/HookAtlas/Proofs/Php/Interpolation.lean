/-
# Which double-quoted strings are templates

A double-quoted string embeds something where a dollar sign comes before a brace or a name, or a brace before a
dollar sign.  A backslash takes the meaning from what it escapes, and the backslashes directly before a place tell
whether that place is escaped: it is where they are odd in number.

The recogniser does not count backslashes.  It passes over each of them together with the code point behind it,
so the places that it looks at are those with an even number of backslashes before them.
-/

import HookAtlas.Proofs.Php.Escapes
import HookAtlas.Proofs.Php.Tags

namespace HookAtlas.Php

/-! ## What a string embeds -/

/-- A variable or an expression is embedded here, unless it is escaped: a dollar sign comes before a brace, a
letter, an underscore or a code point beyond ASCII, or a brace comes before a dollar sign. -/
def StartsEmbedded (t : Text) : Prop :=
  ∃ (c next : CodePoint) (rest : Text), t = c :: next :: rest ∧
    (c = '$' ∧ (next = '{' ∨ next.isAsciiLetter = true ∨ next = '_' ∨ 0x80 ≤ next.val) ∨
      c = '{' ∧ next = '$')

/-- Something is embedded in the body of a string at a place that no backslash escapes. -/
def Embeds (body : Text) : Prop :=
  ∃ before after, body = before ++ after ∧ before.trailingBackslashes % 2 = 0 ∧ StartsEmbedded after

theorem isNameStart_iff (c : CodePoint) :
    c.isNameStart = true ↔ c.isAsciiLetter = true ∨ c = '_' ∨ 0x80 ≤ c.val := by
  have hmark : c = '_' ↔ c.val = 0x5F := by
    constructor
    · rintro rfl
      rfl
    · intro hval
      cases c
      cases hval
      rfl
  rw [hmark, CodePoint.isNameStart, Bool.or_eq_true, Bool.or_eq_true, beq_iff_eq, decide_eq_true_eq,
    or_assoc]

theorem startsEmbedded_cons_cons_iff (c next : CodePoint) (rest : Text) :
    StartsEmbedded (c :: next :: rest) ↔
      c = '$' ∧ (next = '{' ∨ next.isNameStart = true) ∨ c = '{' ∧ next = '$' := by
  rw [isNameStart_iff]
  constructor
  · rintro ⟨_, _, _, heq, hmarks⟩
    cases heq
    exact hmarks
  · intro hmarks
    exact ⟨c, next, rest, rfl, hmarks⟩

theorem not_startsEmbedded_backslash (cs : Text) : ¬ StartsEmbedded (CodePoint.ofChar '\\' :: cs) := by
  rintro ⟨_, _, _, heq, ⟨hdollar, -⟩ | ⟨hbrace, -⟩⟩
  · rw [← (List.cons.inj heq).1] at hdollar
    exact absurd hdollar (by decide)
  · rw [← (List.cons.inj heq).1] at hbrace
    exact absurd hbrace (by decide)

/-- Nothing is embedded in fewer than two code points. -/
theorem not_embeds_of_length_lt {body : Text} (hshort : body.length < 2) : ¬ Embeds body := by
  rintro ⟨before, after, rfl, -, _, _, _, rfl, -⟩
  simp only [List.length_append, List.length_cons] at hshort
  omega

/-- Behind a code point that is no backslash the places are those of the rest. -/
theorem embeds_cons_iff {c : CodePoint} (hplain : c ≠ '\\') (cs : Text) :
    Embeds (c :: cs) ↔ StartsEmbedded (c :: cs) ∨ Embeds cs := by
  have hparity (before : Text) :
      Text.trailingBackslashes (c :: before) % 2 = before.trailingBackslashes % 2 := by
    have heven : Text.trailingBackslashes [c] % 2 = 0 := by
      rw [← List.nil_append [c], Text.trailingBackslashes_append_singleton, if_neg hplain]
    exact Text.trailingBackslashes_append_mod heven before
  constructor
  · rintro ⟨before, after, hbody, heven, hembedded⟩
    cases before with
    | nil =>
        rw [List.nil_append] at hbody
        exact .inl (hbody ▸ hembedded)
    | cons d before =>
        rw [List.cons_append, List.cons.injEq] at hbody
        obtain ⟨rfl, rfl⟩ := hbody
        rw [hparity] at heven
        exact .inr ⟨before, after, rfl, heven, hembedded⟩
  · rintro (hembedded | ⟨before, after, rfl, heven, hembedded⟩)
    · exact ⟨[], c :: cs, rfl, rfl, hembedded⟩
    · rw [← hparity] at heven
      exact ⟨c :: before, after, rfl, heven, hembedded⟩

/-- A backslash and the code point behind it are no places, and behind them the places are those of the rest. -/
theorem embeds_escape_iff (d : CodePoint) (rest : Text) :
    Embeds (CodePoint.ofChar '\\' :: d :: rest) ↔ Embeds rest := by
  have hodd : Text.trailingBackslashes [CodePoint.ofChar '\\'] = 1 := by decide
  have hpair : Text.trailingBackslashes [CodePoint.ofChar '\\', d] % 2 = 0 := by
    rw [← List.singleton_append, Text.trailingBackslashes_append_singleton, hodd]
    split
    · rfl
    · rfl
  have hparity (before : Text) :
      Text.trailingBackslashes (CodePoint.ofChar '\\' :: d :: before) % 2 =
        before.trailingBackslashes % 2 :=
    Text.trailingBackslashes_append_mod hpair before
  constructor
  · rintro ⟨before, after, hbody, heven, hembedded⟩
    rcases before with _ | ⟨a, _ | ⟨b, before⟩⟩
    · rw [List.nil_append] at hbody
      rw [← hbody] at hembedded
      exact absurd hembedded (not_startsEmbedded_backslash _)
    · rw [← (List.cons.inj hbody).1, hodd] at heven
      cases heven
    · rw [List.cons_append, List.cons_append, List.cons.injEq, List.cons.injEq] at hbody
      obtain ⟨rfl, rfl, rfl⟩ := hbody
      rw [hparity] at heven
      exact ⟨before, after, rfl, heven, hembedded⟩
  · rintro ⟨before, after, rfl, heven, hembedded⟩
    rw [← hparity] at heven
    exact ⟨_ :: d :: before, after, rfl, heven, hembedded⟩

/-- The recogniser looks at the places that are not escaped, each with the code point behind it. -/
theorem hasInterpolation_iff (body : Text) : hasInterpolation body = true ↔ Embeds body := by
  fun_induction hasInterpolation body with
  | case1 => exact iff_of_false Bool.false_ne_true (not_embeds_of_length_lt (by decide))
  | case2 => exact iff_of_false Bool.false_ne_true (not_embeds_of_length_lt (by decide))
  | case3 d rest ih => rw [ih, embeds_escape_iff]
  | case4 c hplain => exact iff_of_false Bool.false_ne_true (not_embeds_of_length_lt (Nat.lt_succ_self 1))
  | case5 c hplain next rest ih =>
      rw [embeds_cons_iff hplain, startsEmbedded_cons_cons_iff, ← ih]
      simp only [Bool.or_eq_true, Bool.and_eq_true, decide_eq_true_eq]

/-! ## Double-quoted tokens -/

/-- A double-quoted literal runs to its closing quote, and its body tells its kind. -/
theorem kind_of_codeLexeme_doubleQuote {cs : Text} {kind : TokenKind} {more : Nat}
    (hlexeme : codeLexeme '"' cs = .token kind more) :
    ∃ body, cs.take more = body ++ [CodePoint.ofChar '"'] ∧
      kind = if hasInterpolation body then .template else .string := by
  have hquoted : codeLexeme '"' cs = quotedLexeme '"'
      (fun body => if hasInterpolation body then .template else .string) .stringLiteral cs := rfl
  rw [hquoted, quotedLexeme] at hlexeme
  have hfinds := closingQuote?_finds '"' cs [CodePoint.ofChar '"'] (by decide)
  split at hlexeme
  · next n hfound =>
      cases hlexeme
      rw [hfound] at hfinds
      obtain ⟨body, after, rfl, rfl, hstop⟩ := hfinds
      obtain ⟨rest, rfl⟩ := List.head?_eq_some_iff.mp hstop.holds.1
      refine ⟨body, (cut_behind_terminator body [CodePoint.ofChar '"'] rest rfl).1, ?_⟩
      rw [Nat.add_sub_cancel, List.take_left]
  · cases hlexeme

/-- Of the double-quoted tokens of a source those are templates that embed something, and the others are plain
strings.  Double-quoted is a token of the code that starts with a double quote; its body is what stands between
that quote and the last code point, which is one too. -/
theorem tokenize_doubleQuoted (source : Text) :
    ∀ token ∈ tokenize source, ¬ token.kind.IsOutside →
      token.text.head? = some (CodePoint.ofChar '"') →
      ∃ body, token.text = CodePoint.ofChar '"' :: (body ++ [CodePoint.ofChar '"']) ∧
        (token.kind = .template ↔ Embeds body) ∧ (token.kind = .string ↔ ¬ Embeds body) := by
  intro token hmem hinside hquote
  obtain ⟨before, after, hsplit⟩ := List.append_of_mem hmem
  obtain ⟨c, cs, more, -, hlexeme, htoken, -⟩ := lexFrom_split hsplit
  have hmode := afterTokens_eq_code_of_split hsplit hinside
  have htext : token.text = c :: cs.take more := congrArg Token.text htoken
  rw [htext, List.head?_cons, Option.some.injEq] at hquote
  rw [hmode, Mode.lexeme, hquote] at hlexeme
  obtain ⟨body, hbody, hkind⟩ := kind_of_codeLexeme_doubleQuote hlexeme
  refine ⟨body, by rw [htext, hquote, hbody], ?_⟩
  rw [hkind, ← hasInterpolation_iff]
  split
  · next hsome => simp [hsome]
  · next hnone => simp [hnone]

/-- Two strings with a dollar sign before a name: behind one backslash and behind two. -/
def dollarSource : Text :=
  "\"\\$x\"\"\\\\$x\""

/-- One backslash takes the meaning from a dollar sign, and two stand for themselves. -/
theorem tokenize_doubleQuoted_dollarSource :
    ∃ plain template, tokenize dollarSource = [plain, template] ∧
      (plain.kind = .string ∧ ¬ plain.kind.IsOutside ∧
        plain.text.head? = some (CodePoint.ofChar '"') ∧
        ∃ body, plain.text = CodePoint.ofChar '"' :: (body ++ [CodePoint.ofChar '"']) ∧ ¬ Embeds body) ∧
      (template.kind = .template ∧ ¬ template.kind.IsOutside ∧
        template.text.head? = some (CodePoint.ofChar '"') ∧
        ∃ body, template.text = CodePoint.ofChar '"' :: (body ++ [CodePoint.ofChar '"']) ∧
          Embeds body) := by
  have htokens : tokenize dollarSource =
      [⟨.string, "\"\\$x\"", 1⟩, ⟨.template, "\"\\\\$x\"", 1⟩] := by cbv
  have hstring : ¬ TokenKind.string.IsOutside := by simp [TokenKind.IsOutside]
  have htemplate : ¬ TokenKind.template.IsOutside := by simp [TokenKind.IsOutside]
  refine ⟨_, _, htokens, ⟨rfl, hstring, rfl, ?_⟩, rfl, htemplate, rfl, ?_⟩
  · obtain ⟨body, hbody, -, hplain⟩ :=
      tokenize_doubleQuoted dollarSource _ (by rw [htokens]; exact List.mem_cons_self) hstring rfl
    exact ⟨body, hbody, hplain.mp rfl⟩
  · obtain ⟨body, hbody, hembeds, -⟩ :=
      tokenize_doubleQuoted dollarSource _
        (by rw [htokens]; exact List.mem_cons_of_mem _ List.mem_cons_self) htemplate rfl
    exact ⟨body, hbody, hembeds.mp rfl⟩

end HookAtlas.Php
